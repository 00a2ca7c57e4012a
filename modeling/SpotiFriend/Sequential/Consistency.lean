import SpotiFriend.Sequential.Profile
import SpotiFriend.Sequential.Removal
import SpotiFriend.Spec.Moves

/-!
# Accounts, documents and devices in step

`Consistent`: accounts and documents are one to one, and what each device holds of its
user is what the document says.  The theorem of this module is that sequential runs keep
it, when only Auth refuses calls: for each operation there is one lemma, and most of them
say which account and which document the operation is about (`Concerns`) and what these
are afterwards.
-/

namespace SpotiFriend

open Async SpotiFriend.Action Store

structure InStep (b : Backend) (v : UserView) : Prop where
  known : ∀ user, v.currentUser = some user →
    ∃ a, b.accounts.get? user.uid = some a ∧ a.email = user.email
  agrees : ∀ user, v.currentUser = some user → v.mapShown = true →
    ∃ id f, b.doc? .userInfo id = some f ∧ f .email = some (.string user.email) ∧
      Agrees v.sharedUserInfo f
  signedOut : v.currentUser = none → v.mapShown = false

/-- **Accounts, documents and devices are in step.** -/
structure Consistent (s : State) : Prop where
  oneToOne : OneToOne s.store
  /-- Every document is one that a device can hold. -/
  legible : ∀ id f, s.store.doc? .userInfo id = some f → ∃ u, Agrees u f
  inStep : ∀ c, InStep s.store (s.locals c).userView

/-! ### The runs in question -/

/-- Every call may succeed, and Auth may refuse. -/
def authOnly : Request → Bool → Prop
  | _, true => True
  | .createUser _ _ _, false => True
  | .signIn _ _, false => True
  | .updateEmail _ _ _ _, false => True
  | .updatePassword _ _ _, false => True
  | _, false => False

def finiteRadius (text : String) : Bool :=
  match Double.ofText text with
  | some (.fin _) => true
  | none => true
  | _ => false

def displays : Event → Bool
  | .viewDidLoad _ => true
  | .reloadMapClicked _ => true
  | .didUpdateLocations _ _ => true
  | .userLocationChanged _ => true
  | .viewFor _ _ => true
  | .editText _ _ _ => true
  | .mapLongPressed _ _ => true
  | _ => false

/-- What the user may do next on a device: sign up or log in when nobody is signed in,
then open the map, and from then on everything else; a tap is where at most one playlist
lies, and no radius is infinite or no number.  What only shows something may happen at any time. -/
def allowed (b : Backend) (d : Device) : Event → Bool
  | .signUpClicked _ => d.currentUser.isNone
  | .logInClicked _ => d.currentUser.isNone
  | .viewWillAppear => d.currentUser.isSome
  | .logOutClicked _ => d.currentUser.isSome && d.mapShown
  | .updateClicked _ _ => d.currentUser.isSome && d.mapShown
  | .updateMapRadiusClicked vc =>
    d.currentUser.isSome && d.mapShown && finiteRadius (d.text vc .mapRadiusTextField)
  | .addPlaylistClicked _ => d.currentUser.isSome && d.mapShown
  | .storeProfilePic _ => d.currentUser.isSome && d.mapShown
  | .calloutTapped p => d.currentUser.isSome && d.mapShown &&
    (b.getDocuments (.atCoordinate .masterPlaylists p)).length +
      (b.getDocuments (.atCoordinate .userPlaylists p)).length ≤ 1
  | .deleteAccountClicked => d.currentUser.isSome && d.mapShown
  | e => displays e

/-- No account is signed in on two devices. -/
def Alone (s : State) : Prop :=
  ∀ c c' user user', (s.locals c).currentUser = some user →
    (s.locals c').currentUser = some user' → user.uid = user'.uid → c = c'

variable {P : Platform} {b b' : Backend} {c : ℕ} {d d' : Device} {v : UserView} {vc : VC}
  {ls : List Label} {s s' : State} {user : User} {uid id : ℕ} {a : Credentials} {k : WriteBack}

/-! ### What is only shown -/

def displaying : Request → Bool
  | .addStaticAnnotations _ => true
  | .addUserAnnotations _ => true
  | .deleteOldPlaylist _ => true
  | .viewForPlaylist _ _ => true
  | .viewForUserInfo _ _ => true
  | _ => false

theorem start_displays {e : Event} (he : displays e = true) (live : d.crashed = false) :
    (start e d).1.userView = d.userView ∧ ∀ r ∈ (start e d).2, displaying r = true := by
  refine ⟨?_, fun r hr => ?_⟩
  · obtain ⟨l, hl⟩ := start_device e live
    rw [hl]
    cases e with
    | didUpdateLocations map locations => cases locations <;> rfl
    | viewDidLoad | reloadMapClicked | userLocationChanged | viewFor | editText | mapLongPressed => rfl
    | _ => cases he
  · have hbegins := start_begins e live r hr
    cases e with
    | viewDidLoad | reloadMapClicked | didUpdateLocations => rcases hbegins with rfl | rfl <;> rfl
    | viewFor => exact hbegins ▸ rfl
    | userLocationChanged | editText | mapLongPressed => cases hbegins
    | _ => cases he

theorem resume_displaying {r : Request} (hr : displaying r = true) (m : ℤ)
    (reply : Except String r.Answer) (live : d.crashed = false) :
    (resume P r m reply d).1.userView = d.userView ∧
      ∀ r' ∈ (resume P r m reply d).2, displaying r' = true := by
  refine ⟨?_, fun r' hr' => ?_⟩
  · cases r with
    | addStaticAnnotations | addUserAnnotations | viewForUserInfo =>
      exact loops_keeps (π := Device.userView) _ m reply (fun _ _ _ _ _ _ => rfl) rfl _
    | deleteOldPlaylist | viewForPlaylist =>
      rw [resume_device _ m reply live rfl]
      simp [replied, Device.userView, authState, shares, leavesMap]
    | _ => cases hr
  · have hleads := resume_leads P r m reply d r' hr'
    cases r with
    | addUserAnnotations =>
      obtain ⟨id, rfl⟩ := hleads
      rfl
    | viewForPlaylist =>
      obtain ⟨email, rfl⟩ := hleads
      rfl
    | addStaticAnnotations | deleteOldPlaylist | viewForUserInfo => cases hleads
    | _ => cases hr

theorem exec_displaying {r : Request} (hr : displaying r = true) (m : ℤ) (b : Backend) :
    (r.operation.exec P m b).1.accounts = b.accounts ∧
      (r.operation.exec P m b).1.firestore .userInfo = b.firestore .userInfo := by
  cases r with
  | addStaticAnnotations | addUserAnnotations | deleteOldPlaylist | viewForPlaylist | viewForUserInfo =>
    exact ⟨rfl, rfl⟩
  | _ => cases hr

/-- **What only shows something** leaves the accounts, their documents and what the device holds of
the user. -/
theorem displays_settles {may : Request → Bool → Prop} {e : Event} (live : (s.locals c).crashed = false)
    (he : displays e = true)
    (hc : Completes (app P) may (running s.store s.locals c (start e (s.locals c))) ls s') :
    ∃ d', s'.locals = Function.update s.locals c d' ∧ d'.userView = (s.locals c).userView ∧
      s'.store.accounts = s.store.accounts ∧
      s'.store.firestore .userInfo = s.store.firestore .userInfo := by
  obtain ⟨hview, hshows⟩ := start_displays he live
  have hend : (∀ j ∈ s'.jobs, j.client = c ∧ displaying j.request = true) ∧
      (∃ d', s'.locals = Function.update s.locals c d' ∧ d'.userView = (s.locals c).userView) ∧
      s'.store.accounts = s.store.accounts ∧
      s'.store.firestore .userInfo = s.store.firestore .userInfo := by
    refine hc.1.invariant (I := fun t => (∀ j ∈ t.jobs, j.client = c ∧ displaying j.request = true) ∧
      (∃ d', t.locals = Function.update s.locals c d' ∧ d'.userView = (s.locals c).userView) ∧
      t.store.accounts = s.store.accounts ∧
      t.store.firestore .userInfo = s.store.firestore .userInfo) ?_
      ⟨?_, ⟨_, rfl, hview⟩, rfl, rfl⟩
    · rintro t ℓ t' ⟨hjobs, ⟨d', hlocals, hd'⟩, haccounts, huserInfo⟩ guard move
      cases move with
      | event => exact guard.2.elim
      | @effect js₁ js₂ j m split waiting =>
        obtain ⟨hclient, hj⟩ := hjobs j (mem_of_split split)
        obtain ⟨hsame, hdocs⟩ := exec_displaying (P := P) hj m t.store
        refine ⟨fun j' hj' => ?_, ⟨d', hlocals, hd'⟩, hsame.trans haccounts, hdocs.trans huserInfo⟩
        rcases mem_of_settled split hj' with rfl | hj'
        · exact ⟨hclient, hj⟩
        · exact hjobs j' hj'
      | @fail js₁ js₂ j err split waiting =>
        refine ⟨fun j' hj' => ?_, ⟨d', hlocals, hd'⟩, haccounts, huserInfo⟩
        rcases mem_of_settled split hj' with rfl | hj'
        · exact hjobs j (mem_of_split split)
        · exact hjobs j' hj'
      | @deliver js₁ js₂ j m a split answered live' =>
        obtain ⟨rfl, hj⟩ := hjobs j (mem_of_split split)
        obtain ⟨hview', hshows'⟩ := resume_displaying (P := P) hj m a (by simpa using live')
        rw [hlocals, Function.update_self] at hview' hshows'
        refine ⟨fun j' hj' => ?_, ⟨_, ?_, hview'.trans hd'⟩, haccounts, huserInfo⟩
        · rcases List.mem_append.mp hj' with hj' | hj'
          · exact hjobs j' ((rest_sublist split).subset hj')
          · obtain ⟨r, hr, rfl⟩ := List.mem_map.mp hj'
            rw [app_resume, hlocals, Function.update_self] at hr
            exact ⟨rfl, hshows' r hr⟩
        · rw [State.proceed_locals, app_resume, hlocals, Function.update_self, Function.update_idem]
    · intro j hj
      obtain ⟨r, hr, rfl⟩ := List.mem_map.mp hj
      exact ⟨rfl, hshows r hr⟩
  obtain ⟨-, ⟨d', hlocals, hd'⟩, haccounts, huserInfo⟩ := hend
  exact ⟨d', hlocals, hd', haccounts, huserInfo⟩

/-! ### What an operation concerns -/

/-- The change of the services is about the account `uid` and the document `id`, which is no
other account's. -/
structure Concerns (uid id : ℕ) (b b' : Backend) : Prop where
  accounts : ∀ uid', uid' ≠ uid → b'.accounts.get? uid' = b.accounts.get? uid'
  documents : ∀ id', id' ≠ id → b'.doc? .userInfo id' = b.doc? .userInfo id'
  own : ∀ uid' a', uid' ≠ uid → b.accounts.get? uid' = some a' →
    b.field .userInfo id .email ≠ some (.string a'.email)

theorem OneToOne.own_document (h : OneToOne b) (ha : b.accounts.get? uid = some a)
    (hid : b.field .userInfo id .email = some (.string a.email)) {uid' : ℕ} {a' : Credentials}
    (hne : uid' ≠ uid) (ha' : b.accounts.get? uid' = some a') :
    b.field .userInfo id .email ≠ some (.string a'.email) := by
  intro hid'
  have hemail := Value.string.inj (Option.some.inj (hid'.symm.trans hid))
  exact hne (h.distinct uid' uid a' a ha' ha hemail)

namespace InStep

theorem congr (h : InStep b v) (haccounts : b'.accounts = b.accounts)
    (huserInfo : b'.firestore .userInfo = b.firestore .userInfo) : InStep b' v := by
  refine ⟨?_, ?_, h.signedOut⟩
  · rw [haccounts]
    exact h.known
  · rw [show b'.doc? .userInfo = b.doc? .userInfo by funext id; rw [Backend.doc?, huserInfo]; rfl]
    exact h.agrees

theorem frame (h : InStep b v) (hconcerns : Concerns uid id b b')
    (hother : ∀ user, v.currentUser = some user → user.uid ≠ uid) : InStep b' v := by
  refine ⟨fun user huser => ?_, fun user huser hshown => ?_, h.signedOut⟩
  · rw [hconcerns.accounts _ (hother user huser)]
    exact h.known user huser
  · obtain ⟨a, ha, hemail⟩ := h.known user huser
    obtain ⟨id', f, hf, he, hagrees⟩ := h.agrees user huser hshown
    have hid : id' ≠ id := by
      rintro rfl
      refine hconcerns.own user.uid a (hother user huser) ha ?_
      rw [Backend.field, hf, hemail]
      exact he
    exact ⟨id', f, (hconcerns.documents id' hid).trans hf, he, hagrees⟩

theorem email (h : InStep b v) (huser : v.currentUser = some user) (hshown : v.mapShown = true) :
    v.sharedUserInfo.email = user.email := by
  obtain ⟨id, f, -, he, hagrees⟩ := h.agrees user huser hshown
  exact Value.string.inj (Option.some.inj (hagrees.email.symm.trans he))

theorem of_signedOut (huser : v.currentUser = none) (hshown : v.mapShown = false) : InStep b v := by
  refine ⟨fun user huser' => ?_, fun user huser' => ?_, fun _ => hshown⟩
  · rw [huser] at huser'
    cases huser'
  · rw [huser] at huser'
    cases huser'

theorem of_known (huser : v.currentUser = some user) (ha : b.accounts.get? user.uid = some a)
    (hemail : a.email = user.email) (hshown : v.mapShown = false) : InStep b v := by
  refine ⟨fun user' huser' => ?_, fun _ _ hshown' => ?_, fun _ => hshown⟩
  · obtain rfl := Option.some.inj (huser.symm.trans huser')
    exact ⟨a, ha, hemail⟩
  · rw [hshown] at hshown'
    cases hshown'

theorem of_agrees {f : Fields} (huser : v.currentUser = some user)
    (ha : b.accounts.get? user.uid = some a) (hemail : a.email = user.email)
    (hf : b.doc? .userInfo id = some f) (he : f .email = some (.string user.email))
    (hagrees : Agrees v.sharedUserInfo f) : InStep b v := by
  refine ⟨fun user' huser' => ?_, fun user' huser' _ => ?_, fun hnone => ?_⟩
  · obtain rfl := Option.some.inj (huser.symm.trans huser')
    exact ⟨a, ha, hemail⟩
  · obtain rfl := Option.some.inj (huser.symm.trans huser')
    exact ⟨id, f, hf, he, hagrees⟩
  · rw [huser] at hnone
    cases hnone

end InStep

namespace Consistent

theorem still (h : Consistent s) (hlocals : s'.locals = Function.update s.locals c d')
    (haccounts : s'.store.accounts = s.store.accounts)
    (huserInfo : s'.store.firestore .userInfo = s.store.firestore .userInfo)
    (hself : InStep s.store d'.userView) : Consistent s' := by
  refine ⟨h.oneToOne.frame (accountLogin_congr haccounts) (documentLogin_congr huserInfo), ?_,
    fun c' => ?_⟩
  · intro id f hf
    rw [Backend.doc?, huserInfo] at hf
    exact h.legible id f hf
  · refine InStep.congr ?_ haccounts huserInfo
    rw [hlocals]
    by_cases hc : c' = c
    · rw [hc, Function.update_self]
      exact hself
    · rw [Function.update_of_ne hc]
      exact h.inStep c'

theorem change (h : Consistent s) (uid id : ℕ) (hlocals : s'.locals = Function.update s.locals c d')
    (hconcerns : Concerns uid id s.store s'.store)
    (hothers : ∀ c', c' ≠ c → ∀ user, (s.locals c').currentUser = some user → user.uid ≠ uid)
    (honeToOne : OneToOne s'.store)
    (hdocument : ∀ f, s'.store.doc? .userInfo id = some f → ∃ u, Agrees u f)
    (hself : InStep s'.store d'.userView) : Consistent s' := by
  refine ⟨honeToOne, fun id' f hf => ?_, fun c' => ?_⟩
  · by_cases hid : id' = id
    · exact hdocument f (hid ▸ hf)
    · rw [hconcerns.documents id' hid] at hf
      exact h.legible id' f hf
  · rw [hlocals]
    by_cases hc : c' = c
    · rw [hc, Function.update_self]
      exact hself
    · rw [Function.update_of_ne hc]
      exact (h.inStep c').frame hconcerns (hothers c' hc)

/-! ### Signing up, logging in, the map and logging out -/

theorem signUp (h : Consistent s) (hnobody : (s.locals c).currentUser = none)
    (hc : Completes (app P) authOnly
      (running s.store s.locals c (SignUpVC.signUpClicked vc (s.locals c))) ls s') :
    Consistent s' := by
  have hshown : (s.locals c).mapShown = false := (h.inStep c).signedOut hnobody
  obtain ⟨b', d', rfl, ⟨rfl, hview, -⟩ | ⟨haccepted, hview, ⟨m, -, rfl⟩ | ⟨hmay, -⟩⟩⟩ :=
    signUp_settles hc
  · exact h.still rfl rfl rfl (hview ▸ h.inStep c)
  · have hnew : s.store.field .userInfo (s.store.firestore .userInfo).next .email = none := by
      rw [Backend.field, Backend.doc?, (s.store.firestore .userInfo).vacant _ (Nat.le_refl _)]
      rfl
    refine h.change s.store.accounts.next (s.store.firestore .userInfo).next rfl
      ⟨fun uid' hne => ?_, fun id' hne => ?_, fun _ _ _ _ => Option.eq_none_iff_forall_ne_some.mp hnew _⟩
      (fun c' _ user huser huid => ?_) (haccepted.oneToOne (P := P) h.oneToOne m)
      (fun f hf => ?_) ?_
    · exact (s.store.accounts.get?_add _ uid').trans (if_neg hne)
    · exact (doc?_addDocument (P := P)).trans (if_neg (fun hand => hne hand.2))
    · -- the new ID is no account's
      obtain ⟨a, ha, -⟩ := (h.inStep c').known user huser
      rw [huid, s.store.accounts.vacant _ (Nat.le_refl _)] at ha
      cases ha
    · obtain rfl := Option.some.inj
        (((doc?_addDocument (P := P)).trans (if_pos ⟨rfl, rfl⟩)).symm.trans hf)
      refine ⟨⟨(s.locals c).text vc .emailTextField, (s.locals c).text vc .usernameTextField, "",
        .fin 40225, 0, 0⟩, fun k => ?_⟩
      cases k <;> simp [UserSingleton.Shows, Stands, Request.userDict, Entry.resolve]
    · rw [hview]
      exact .of_known (a := ⟨_, _⟩) rfl (s.store.accounts.get?_add_next _) rfl hshown
  · cases hmay

theorem logIn (h : Consistent s) (hnobody : (s.locals c).currentUser = none)
    (hc : Completes (app P) authOnly
      (running s.store s.locals c (LogInVC.logInClicked vc (s.locals c))) ls s') :
    Consistent s' := by
  have hshown : (s.locals c).mapShown = false := (h.inStep c).signedOut hnobody
  obtain ⟨d', rfl, hview | ⟨uid, a, ha, hview⟩⟩ := logIn_settles hc
  · exact h.still rfl rfl rfl (hview ▸ h.inStep c)
  · refine h.still rfl rfl rfl ?_
    rw [hview]
    exact .of_known rfl ha rfl hshown

theorem viewWillAppear (h : Consistent s) (live : (s.locals c).crashed = false)
    (huser : (s.locals c).currentUser = some user)
    (hc : Completes (app P) authOnly
      (running s.store s.locals c (MapVC.viewWillAppear (s.locals c))) ls s') : Consistent s' := by
  obtain ⟨d', rfl, hcurrent, -, hmay | hload⟩ := viewWillAppear_settles live huser hc
  · cases hmay
  obtain ⟨a, ha, hemail⟩ := (h.inStep c).known user huser
  rcases query_cases (oneToOne_iff.mp h.oneToOne).right user.email with
    ⟨-, hnone⟩ | ⟨id, f, hone, hf, he⟩
  · obtain ⟨id, -, -, honly⟩ := h.oneToOne.own ha
    exact absurd ((honly id).mpr rfl) (hemail ▸ hnone id)
  · obtain ⟨u, hagrees⟩ := h.legible id f hf
    refine h.still rfl rfl rfl (.of_agrees hcurrent ha hemail hf he ?_)
    rw [show d'.userView.sharedUserInfo = u by
      rw [Device.userView, hload, hone]
      exact hagrees.load]
    exact hagrees

theorem logOut (h : Consistent s) {signOut : Bool} (hc : Completes (app P) authOnly
      (running s.store s.locals c (ProfileVC.logOutClicked signOut (s.locals c))) ls s') :
    Consistent s' := by
  cases signOut with
  | true =>
    obtain rfl := hc.done
    exact h.still rfl rfl rfl (.of_signedOut rfl rfl)
  | false =>
    obtain rfl := hc.done
    exact h.still rfl rfl rfl (h.inStep c)

/-! ### Changing email and password -/

/-- Auth and the document get new credentials, and the device what the document says. -/
theorem rewritten (h : Consistent s) (halone : Alone s)
    (huser : (s.locals c).currentUser = some user) (hshown : (s.locals c).mapShown = true)
    (ha : s.store.accounts.get? user.uid = some a) (hemail : a.email = user.email)
    (hid : s.store.field .userInfo id .email = some (.string user.email))
    {a' : Credentials} {w : UserSingleton} {m : ℤ}
    (hfresh : FreshFor Prod.fst (accountLogin s.store) user.uid (some a'.login))
    (hrewrite : k.rewrite d a.login = a'.login) (hw : w.email = a'.email)
    (hagrees : ∀ f, Agrees (s.locals c).sharedUserInfo f → Agrees w ((k.data d).merge m (some f)))
    (hlocals : s'.locals = Function.update s.locals c d')
    (hview : d'.userView = ⟨some ⟨user.uid, a'.email⟩, true, w⟩)
    (hstore : s'.store = ((Operation.setData .userInfo id (k.data d)).exec P m
      (withCredentials s.store user.uid a')).1) : Consistent s' := by
  have hown : s.store.field .userInfo id .email = some (.string a.email) := by rw [hemail]; exact hid
  -- the document is the one that the device agrees with
  obtain ⟨id₀, f, hf, he, hf'⟩ := (h.inStep c).agrees user huser hshown
  obtain ⟨id₁, -, -, honly⟩ := h.oneToOne.own ha
  obtain rfl := (honly id).mp hown
  obtain rfl : id₀ = id := (honly id₀).mp (by rw [Backend.field, hf, hemail]; exact he)
  have hwritten : s'.store.doc? .userInfo id₀ = some ((k.data d).merge m (some f)) := by
    rw [hstore, doc?_setData, if_pos ⟨rfl, rfl⟩, ← hf]
    rfl
  have hnew := hagrees f hf'
  have haccounts : s'.store.accounts = s.store.accounts.upsert user.uid (fun _ => a') := by
    rw [hstore]
    rfl
  refine h.change user.uid id₀ hlocals
    ⟨fun uid' hne => ?_, fun id' hne => ?_, fun uid' a' => h.oneToOne.own_document ha hown⟩
    (fun c' hne user' huser' huid => hne (halone c' c user' user huser' huser huid)) ?_
    (fun f' hf' => ?_) ?_
  · rw [haccounts, Collection.get?_upsert, if_neg hne]
  · rw [hstore, doc?_setData, if_neg (fun hand => hne hand.2)]
    rfl
  · rw [hstore]
    exact oneToOne_rewritten h.oneToOne ha hown hfresh hrewrite
  · obtain rfl := Option.some.inj (hwritten.symm.trans hf')
    exact ⟨w, hnew⟩
  · rw [hview]
    refine .of_agrees (a := a') (show _ = some (⟨user.uid, a'.email⟩ : User) from rfl) ?_ rfl hwritten ?_ hnew
    · rw [haccounts, Collection.get?_upsert_self]
    · rw [← hw]
      exact hnew.email

theorem updateEmail (h : Consistent s) (halone : Alone s) (live : (s.locals c).crashed = false)
    (hshown : (s.locals c).mapShown = true) (hc : Completes (app P) authOnly
      (running s.store s.locals c (EditAccountVC.updateClicked vc .email (s.locals c))) ls s') :
    Consistent s' := by
  obtain ⟨b', d', rfl, ⟨rfl, hview, -⟩ | ⟨user, a, haccepted, hview, u, hback⟩⟩ :=
    updateEmail_settles live (oneToOne_iff.mp h.oneToOne).right hc
  · exact h.still rfl rfl rfl (hview ▸ h.inStep c)
  · obtain ⟨a₀, ha₀, hemail⟩ := (h.inStep c).known user haccepted.signedIn
    obtain rfl := Option.some.inj (ha₀.symm.trans haccepted.account)
    obtain ⟨id, m, hid, hstore⟩ :=
      found_of_writesBack h.oneToOne ha₀ hemail not_false (fun _ => not_false) hback
    refine h.rewritten (k := .email vc) halone haccepted.signedIn hshown ha₀ hemail hid
      (freshFor_of_emailTaken haccepted.free a₀.password) rfl rfl
      (fun f hf => WriteBack.agrees_email hf m) rfl ?_ hstore
    rw [hview, hshown]

theorem updatePassword (h : Consistent s) (halone : Alone s)
    (hshown : (s.locals c).mapShown = true) (hc : Completes (app P) authOnly
      (running s.store s.locals c (EditAccountVC.updateClicked vc .password (s.locals c))) ls s') :
    Consistent s' := by
  obtain ⟨b', d', rfl, hview, ⟨rfl, -⟩ | ⟨user, a, haccepted, u, hback⟩⟩ :=
    updatePassword_settles (oneToOne_iff.mp h.oneToOne).right hc
  · exact h.still rfl rfl rfl (hview ▸ h.inStep c)
  · obtain ⟨a₀, ha₀, hemail⟩ := (h.inStep c).known user haccepted.signedIn
    obtain rfl := Option.some.inj (ha₀.symm.trans haccepted.account)
    obtain ⟨id, m, hid, hstore⟩ :=
      found_of_writesBack h.oneToOne ha₀ hemail not_false (fun _ => not_false) hback
    have hfresh : FreshFor Prod.fst (accountLogin s.store) user.uid
        (some (Credentials.login ⟨a₀.email, (s.locals c).text vc .desiredTextField⟩)) :=
      (oneToOne_iff.mp h.oneToOne).left.freshFor (accountLogin_eq_some.mpr ⟨a₀, ha₀, rfl⟩)
        (fun v hv => by rw [← Option.some.inj hv]; rfl)
    refine h.rewritten (k := .password vc) halone haccepted.signedIn hshown ha₀ hemail hid hfresh rfl
      ?_ (fun f hf => WriteBack.agrees (k := .password vc) hf trivial nofun m) rfl ?_ hstore
    · exact ((h.inStep c).email haccepted.signedIn hshown).trans hemail.symm
    · rw [hview, Device.userView, haccepted.signedIn, hshown, hemail]
      rfl

/-! ### Changing the profile -/

theorem edit (h : Consistent s) (halone : Alone s) (huser : (s.locals c).currentUser = some user)
    (hshown : (s.locals c).mapShown = true) (hfits : k.Fits (s.locals c)) (hemail : k.field ≠ .email)
    (hpassword : k.field ≠ .password) (hlocals : s'.locals = Function.update s.locals c d')
    (hedits : Edits k user.email (s.locals c) s.store d' s'.store) : Consistent s' := by
  rcases hedits.outcome with ⟨huserInfo, hshared⟩ | ⟨id, m, hid, huserInfo, hshared⟩
  · refine h.still hlocals hedits.accounts huserInfo ?_
    rw [Device.userView, hedits.currentUser, hedits.mapShown, hshared]
    exact h.inStep c
  · obtain ⟨a, ha, hown⟩ := (h.inStep c).known user huser
    have hid' : s.store.field .userInfo id .email = some (.string a.email) := by rw [hown]; exact hid
    obtain ⟨id₀, f, hf, he, hf'⟩ := (h.inStep c).agrees user huser hshown
    obtain ⟨id₁, -, hlogin, honly⟩ := h.oneToOne.own ha
    obtain rfl := (honly id).mp hid'
    obtain rfl : id₀ = id := (honly id₀).mp (by rw [Backend.field, hf, hown]; exact he)
    have hdoc : ∀ id, s'.store.doc? .userInfo id =
        ((s.store.firestore .userInfo).upsert id₀ ((k.data (s.locals c)).merge m)).get? id := by
      intro id
      rw [Backend.doc?, huserInfo]
    have hwritten : s'.store.doc? .userInfo id₀ =
        some ((k.data (s.locals c)).merge m (some f)) := by
      rw [hdoc, Collection.get?_upsert_self, ← hf]
      rfl
    have hnew := k.agrees (d := s.locals c) hf' hfits hemail m
    refine h.change user.uid id₀ hlocals
      ⟨fun uid' _ => by rw [hedits.accounts], fun id' hne => ?_,
        fun uid' a' => h.oneToOne.own_document ha hid'⟩
      (fun c' hne user' huser' huid => hne (halone c' c user' user huser' huser huid)) ?_
      (fun f' hf' => ?_) ?_
    · rw [hdoc, Collection.get?_upsert, if_neg hne]
      rfl
    · refine h.oneToOne.frame (accountLogin_congr hedits.accounts) ?_
      rw [documentLogin_congr (b := ((Operation.setData .userInfo id₀
        (k.data (s.locals c))).exec .sample m s.store).1) (huserInfo.trans ?_)]
      · refine documentLogin_setData_of_absent (by rw [hlogin]; rfl) ?_ ?_
        · rw [WriteBack.data, Dict.fields_cons, if_neg hemail.symm, Dict.fields_nil]
        · rw [WriteBack.data, Dict.fields_cons, if_neg hpassword.symm, Dict.fields_nil]
      · rw [Operation.exec, Backend.setCollection_firestore, Function.update_self]
    · obtain rfl := Option.some.inj (hwritten.symm.trans hf')
      exact ⟨_, hnew⟩
    · refine .of_agrees (hedits.currentUser.trans huser) (a := a) ?_ hown hwritten ?_ ?_
      · rw [hedits.accounts]
        exact ha
      · rw [k.merge_data, if_neg hemail.symm]
        exact he
      · rw [Device.userView, hshared]
        exact hnew

/-! ### Deleting the account -/

theorem deleteAccount (h : Consistent s) (halone : Alone s) (live : (s.locals c).crashed = false)
    (huser : (s.locals c).currentUser = some user) (hc : Completes (app P) authOnly
      (running s.store s.locals c (SettingsVC.deleteAccountClicked (s.locals c))) ls s') :
    Consistent s' := by
  obtain ⟨d', hlocals, hdocument, haccount⟩ :=
    deleteAccount_settles live (oneToOne_iff.mp h.oneToOne).right huser hc
  obtain ⟨a, ha, hown⟩ := (h.inStep c).known user huser
  obtain ⟨id, hpair, -, honly⟩ := h.oneToOne.own ha
  generalize hF : s'.store.firestore = F at hdocument
  generalize hA : s'.store.accounts = A at haccount
  generalize hv : d'.userView = w at haccount
  cases hdocument with
  | left missed =>
    rcases missed with hmay | hnone | ⟨_, -, hmay⟩
    · cases hmay
    · exact absurd ((honly id).mpr rfl) (hown ▸ hnone id)
    · cases hmay
  | removed id' _ hfound _ =>
    obtain rfl := (honly id').mp (by rw [hown]; exact hfound)
    cases haccount with
    | left hrefused => cases hrefused (by rw [ha]; rfl)
    | removed _ _ =>
      have hdoc : ∀ id'', s'.store.doc? .userInfo id'' =
          ((s.store.firestore .userInfo).delete id').get? id'' := by
        intro id''
        rw [Backend.doc?, hF, withoutDocument, Backend.setCollection_firestore, Function.update_self]
      refine h.change user.uid id' hlocals
        ⟨fun uid' hne => ?_, fun id'' hne => ?_,
          fun uid' a' => h.oneToOne.own_document ha ((honly id').mpr rfl)⟩
        (fun c' hne user' huser' huid => hne (halone c' c user' user huser' huser huid)) ?_
        (fun f hf => ?_) ?_
      · rw [hA, Collection.get?_delete, if_neg hne]
      · rw [hdoc, Collection.get?_delete, if_neg hne]
        rfl
      · refine (oneToOne_own_iff (x := none) (y := none) h.oneToOne hpair freshFor_none ?_ ?_).mpr rfl
        · rw [← accountLogin_delete]
          exact accountLogin_congr hA
        · rw [← documentLogin_delete (P := P) s.store id' 0]
          exact documentLogin_congr (congrFun hF _)
      · rw [hdoc, Collection.get?_delete_self] at hf
        cases hf
      · rw [hv]
        exact .of_signedOut rfl rfl

/-! ### Every operation -/

theorem operation (h : Consistent s) (halone : Alone s) {e : Event}
    (hallowed : allowed s.store (s.locals c) e = true) (live : (s.locals c).crashed = false)
    (hc : Completes (app P) authOnly (running s.store s.locals c (start e (s.locals c))) ls s') :
    Consistent s' := by
  have hkeyed := (oneToOne_iff.mp h.oneToOne).right
  -- who is signed in at the map
  have hatMap : ((s.locals c).currentUser.isSome && (s.locals c).mapShown) = true →
      ∃ user, (s.locals c).currentUser = some user ∧ (s.locals c).mapShown = true := by
    intro hand
    obtain ⟨hsome, hshown⟩ := Bool.and_eq_true_iff.mp hand
    obtain ⟨user, huser⟩ := Option.isSome_iff_exists.mp hsome
    exact ⟨user, huser, hshown⟩
  cases e with
  | viewDidLoad | reloadMapClicked | didUpdateLocations | userLocationChanged | viewFor | editText |
      mapLongPressed =>
    obtain ⟨d', hlocals, hview, haccounts, huserInfo⟩ := displays_settles live (by exact hallowed) hc
    exact h.still hlocals haccounts huserInfo (hview ▸ h.inStep c)
  | signUpClicked vc => exact h.signUp (Option.isNone_iff_eq_none.mp hallowed) hc
  | logInClicked vc => exact h.logIn (Option.isNone_iff_eq_none.mp hallowed) hc
  | viewWillAppear =>
    obtain ⟨user, huser⟩ := Option.isSome_iff_exists.mp hallowed
    exact h.viewWillAppear live huser hc
  | logOutClicked signOut => exact h.logOut hc
  | updateClicked vc selectedEditID =>
    obtain ⟨user, huser, hshown⟩ := hatMap hallowed
    cases selectedEditID with
    | email => exact h.updateEmail halone live hshown hc
    | password => exact h.updatePassword halone hshown hc
    | username =>
      obtain ⟨d', hlocals, hedits⟩ := updateUsername_settles hkeyed huser hc
      exact h.edit (k := .username vc) halone huser hshown trivial nofun nofun hlocals hedits
    | unset =>
      obtain rfl := hc.done
      exact h.still rfl rfl rfl (h.inStep c)
  | updateMapRadiusClicked vc =>
    obtain ⟨hand, hfinite⟩ := Bool.and_eq_true_iff.mp hallowed
    obtain ⟨user, huser, hshown⟩ := hatMap hand
    obtain ⟨d', hlocals, hedits⟩ := updateMapRadius_settles hkeyed huser hc
    refine h.edit (k := .radius vc) halone huser hshown ?_ nofun nofun hlocals hedits
    rw [finiteRadius] at hfinite
    show ∃ q, (Double.ofText _).getD (.fin 25) = .fin q
    split at hfinite
    · next q hq => exact ⟨q, by rw [hq]; rfl⟩
    · next hnone => exact ⟨25, by rw [hnone]; rfl⟩
    · cases hfinite
  | addPlaylistClicked vc =>
    obtain ⟨user, huser, hshown⟩ := hatMap hallowed
    obtain ⟨d', hlocals, hedits⟩ := addPlaylist_settles live hkeyed hc
    exact h.edit (k := .created _) halone huser hshown rfl nofun nofun hlocals
      ((h.inStep c).email huser hshown ▸ hedits)
  | storeProfilePic uuid =>
    obtain ⟨user, huser, hshown⟩ := hatMap hallowed
    obtain ⟨d', imgURL, hlocals, hedits⟩ := storeProfilePic_settles live hkeyed hc
    exact h.edit (k := .picture imgURL) halone huser hshown trivial nofun nofun hlocals
      ((h.inStep c).email huser hshown ▸ hedits)
  | calloutTapped p =>
    obtain ⟨hand, hone⟩ := Bool.and_eq_true_iff.mp hallowed
    obtain ⟨user, huser, hshown⟩ := hatMap hand
    obtain ⟨d', hlocals, hedits⟩ :=
      calloutTapped_settles live hkeyed (of_decide_eq_true hone) hc
    exact h.edit (k := .found) halone huser hshown trivial nofun nofun hlocals
      ((h.inStep c).email huser hshown ▸ hedits)
  | deleteAccountClicked =>
    obtain ⟨user, huser, -⟩ := hatMap hallowed
    exact h.deleteAccount halone live huser hc

end Consistent

/-- **Sequential runs keep accounts, documents and devices in step**, whatever Auth
refuses. -/
theorem consistent_run (hrun : Run (app P) (sequentially authOnly (fun s c e =>
      Alone s ∧ allowed s.store (s.locals c) e = true)) s ls s')
    (hs : s.jobs = []) (hs' : s'.jobs = []) (h₀ : Consistent s) : Consistent s' :=
  hrun.sequential (fun _ _ _ _ _ h _ hE live hc =>
    h.operation hE.1 hE.2 (by simpa using live) hc) hs hs' h₀

def nobody : State := ⟨.of [] [] [] [], fun _ => .launched, []⟩

theorem nobody_consistent : Consistent nobody := by
  refine ⟨⟨fun uid _ a _ ha => ?_, fun uid a ha => ?_, fun id f hf => ?_⟩, fun id f hf => ?_,
    fun c => .of_signedOut rfl rfl⟩
  · cases ha
  · cases ha
  · cases hf
  · cases hf

def annRenamed : List Label :=
  [.event 0 (.editText 0 .usernameTextField "ann"), .event 0 (.editText 0 .emailTextField "ann@mail.org"),
    .event 0 (.editText 0 .passwordTextField "secret"), .event 0 (.signUpClicked 0), .effect 0 0,
    .deliver 0 0, .effect 0 0, .deliver 0 0, .event 0 .viewWillAppear, .effect 0 0, .deliver 0 0,
    .event 0 (.editText 1 .desiredTextField "ann@work.org"), .event 0 (.updateClicked 1 .email),
    .effect 0 0, .deliver 0 0, .effect 0 0, .deliver 0 0, .effect 0 0, .deliver 0 0]

theorem annRenamed_consistent : ∃ s', Run (app .sample) (sequentially authOnly (fun s c e =>
      Alone s ∧ allowed s.store (s.locals c) e = true)) nobody annRenamed s' ∧
    (s'.locals 0).sharedUserInfo.email = "ann@work.org" ∧ Consistent s' := by
  obtain ⟨s', hrun, hend⟩ := Run.exists_of_run (show (run (app .sample)
    (solo 0 (fun s e => allowed s.store (s.locals 0) e)) nobody annRenamed).any (fun s' =>
      s'.jobs.isEmpty && (s'.locals 0).sharedUserInfo.email = "ann@work.org") = true by decide +kernel)
  obtain ⟨hquiet, hemail⟩ := Bool.and_eq_true_iff.mp hend
  have hsequential := (hrun.solo (q := authOnly) (l := fun _ => .launched) (fun r => by cases r <;> trivial)
    nofun (fun _ _ => rfl)).mono (H := sequentially authOnly (fun s c e =>
      Alone s ∧ allowed s.store (s.locals c) e = true)) (fun s ℓ guard => ?_)
  · exact ⟨s', hsequential, of_decide_eq_true hemail,
      consistent_run hsequential rfl (List.isEmpty_iff.mp hquiet) nobody_consistent⟩
  · cases ℓ with
    | event c e =>
      obtain ⟨hs, hallowed, rfl, hothers⟩ := guard
      refine ⟨hs, fun c c' user user' huser huser' _ => ?_, hallowed⟩
      -- the other devices have nobody signed in
      have hzero : ∀ c user, (s.locals c).currentUser = some user → c = 0 := by
        intro c user huser
        by_contra hc
        rw [hothers c hc] at huser
        cases huser
      rw [hzero c user huser, hzero c' user' huser']
    | effect i m => exact guard
    | fail i err => exact guard
    | deliver i m => exact guard

end SpotiFriend

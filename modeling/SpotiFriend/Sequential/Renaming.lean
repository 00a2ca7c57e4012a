import SpotiFriend.Sequential.Consistency
import SpotiFriend.Sequential.Credits

/-!
# Changes of the email

Emails tie accounts to playlists, and a change of the email does not go through the
playlists.  Main results, for sequential runs in which no call fails:

* `links_kept`: the links of every account stay, when only emails that are in no playlist
  are changed (`LosesNoLink`);
* `links_lost`: without that they are lost, and a playlist is credited twice.

Taps and creations are accounted for move by move (`busy_completes`); all other operations
make no link (`collect_linkless`) and are taken as a whole.
-/

namespace SpotiFriend

open Async SpotiFriend.Action MapVC Store

/-! ### The runs in question -/

def linking (d : Device) : Event → Bool
  | .editText _ _ _ => true
  | .mapLongPressed _ _ => true
  | .signUpClicked _ => d.currentUser.isNone
  | .logInClicked _ => d.currentUser.isNone
  | .viewWillAppear => d.currentUser.isSome
  | .logOutClicked _ => d.currentUser.isSome && d.mapShown
  | .addPlaylistClicked _ => d.currentUser.isSome && d.mapShown
  | .calloutTapped _ => d.currentUser.isSome && d.mapShown
  | .updateClicked _ .email => d.currentUser.isSome && d.mapShown
  | _ => false

/-- A change of the email that Auth is going to take changes nothing, or the old email is in
no playlist and no other device has it. -/
def LosesNoLink (s : State) (c : ℕ) : Event → Prop
  | .updateClicked vc .email => ∀ user a,
    EmailAccepted allSucceed s.store (s.locals c) vc user a →
      (s.locals c).text vc .desiredTextField = a.email ∨ Unlinked s.store a.email ∧
        ∀ c', c' ≠ c → ∀ user', (s.locals c').currentUser = some user' → user'.uid ≠ user.uid
  | _ => True

/-- Whether an email is in a playlist can be looked up. -/
instance (b : Backend) (email : String) : Decidable (Unlinked b email) :=
  decidable_of_iff ((∀ coll ∈ [CollectionName.masterPlaylists, .userPlaylists, .userInfo],
      ∀ doc ∈ (b.firestore coll).docs, email ∉ b.hasFound coll doc.id) ∧
    ∀ doc ∈ (b.firestore .userPlaylists).docs,
      b.field .userPlaylists doc.id .email ≠ some (.string email)) <| by
    have hthere : ∀ {coll id k v}, b.field coll id k = some v →
        ∃ doc ∈ (b.firestore coll).docs, doc.id = id := by
      intro coll id k v hv
      obtain ⟨f, hf, -⟩ := Option.bind_eq_some_iff.mp hv
      exact ⟨⟨id, f⟩, Collection.mem_docs.mpr hf, rfl⟩
    constructor
    · rintro ⟨hlists, hauthors⟩
      refine ⟨fun coll id hmem => ?_, fun id hfield => ?_⟩
      · obtain ⟨l, hl, -⟩ := Backend.mem_hasFound.mp hmem
        obtain ⟨doc, hdoc, rfl⟩ := hthere hl
        exact hlists coll (by cases coll <;> decide) doc hdoc hmem
      · obtain ⟨doc, hdoc, rfl⟩ := hthere hfield
        exact hauthors doc hdoc hfield
    · exact fun h => ⟨fun coll _ doc _ => h.1 coll doc.id, fun doc _ => h.2 doc.id⟩

structure Recognises (b : Backend) (v : UserView) : Prop where
  known : ∀ user, v.currentUser = some user →
    ∃ a, b.accounts.get? user.uid = some a ∧ a.email = user.email
  email : ∀ user, v.currentUser = some user → v.mapShown = true →
    v.sharedUserInfo.email = user.email
  signedOut : v.currentUser = none → v.mapShown = false

/-- Accounts and documents are one to one, and all devices recognise their users. -/
structure Settled (s : State) : Prop where
  oneToOne : OneToOne s.store
  named : ∀ id f, s.store.doc? .userInfo id = some f → ∃ n, f .username = some (.string n)
  recognises : ∀ c, Recognises s.store (s.locals c).userView

theorem Consistent.settled {s : State} (h : Consistent s) : Settled s := by
  refine ⟨h.oneToOne, fun id f hf => ?_, fun c => ?_⟩
  · obtain ⟨u, hu⟩ := h.legible id f hf
    exact ⟨u.username, hu .username⟩
  · exact ⟨(h.inStep c).known, fun user => (h.inStep c).email, (h.inStep c).signedOut⟩

variable {P : Platform} {b b' : Backend} {l : ℕ → Device} {c : ℕ} {d d' : Device} {vc : VC}
  {links : List Link} {uid id : ℕ} {a : Credentials} {s s' : State} {ls : List Label} {user : User}
  {e : Event} {v : UserView}

/-! ### Operations without links -/

def linkless : Request → Bool
  | .getUserInfo _ => true
  | .createUser _ _ _ => true
  | .addUserInfo _ _ _ => true
  | .signIn _ _ => true
  | .updateEmail _ _ _ _ => true
  | .emailUserInfo _ _ => true
  | .storeEmail _ _ => true
  | _ => false

theorem linkBy_linkless {r : Request} (h : linkless r = true) : linkBy uid b r = none := by
  cases r <;> first | rfl | cases h

theorem resume_linkless {r : Request} (h : linkless r = true) (m : ℤ)
    (reply : Except String r.Answer) (d : Device) :
    ∀ r' ∈ (resume P r m reply d).2, linkless r' = true := by
  suffices hissues : Issues (fun _ => ()) () (fun r' => linkless r' = true)
      (handler P m r reply) from hissues _ rfl
  cases r with
  | getUserInfo email => exact Issues.orAlert (fun _ _ => Issues.modify)
  | createUser vc email password =>
    exact Issues.orAlert (fun _ _ d _ r' hr => by rw [List.mem_singleton.mp hr]; rfl)
  | addUserInfo username email password => exact Issues.orAlert (fun _ _ => Issues.skip)
  | signIn email password => exact Issues.orAlert (fun _ _ => Issues.skip)
  | updateEmail vc uid email oldEmail =>
    refine Issues.orAlert (fun _ _ => Issues.andThen (Keeps.issue _) (Issues.issue rfl) ?_)
    exact fun d _ r' hr => absurd hr List.not_mem_nil
  | emailUserInfo vc oldEmail =>
    refine Issues.orAlert (fun docs _ => ?_)
    rw [EditAccountVC.updateOnly]
    split
    · exact Issues.skip
    · exact Issues.forEach (fun _ _ _ => rfl)
        (fun doc _ d _ r' hr => by rw [List.mem_singleton.mp hr]; rfl)
  | storeEmail id email => exact Issues.orAlert (fun _ _ => Issues.skip)
  | _ => cases h

/-- What the user may do leads to such calls, but for taps and creations. -/
theorem start_linkless {e : Event} (h : linking d e = true) (live : d.crashed = false)
    (htap : ∀ p, e ≠ .calloutTapped p) (hcreate : ∀ vc, e ≠ .addPlaylistClicked vc) :
    ∀ r ∈ (start e d).2, linkless r = true := by
  have hone : ∀ {r r' : Request}, linkless r' = true → r ∈ [r'] → linkless r = true := by
    intro r r' h hr
    rw [List.mem_singleton.mp hr]
    exact h
  have hnone : ∀ {r : Request}, r ∈ [] → linkless r = true := fun hr => absurd hr List.not_mem_nil
  intro r hr
  cases e with
  | editText vc field text => exact hnone hr
  | mapLongPressed vc coords =>
    rw [start, AddPlaylistVC.mapLongPressed, andThen_of_live (by exact live)] at hr
    exact hnone hr
  | signUpClicked vc =>
    rw [start, SignUpVC.signUpClicked] at hr
    split at hr
    · exact hone rfl hr
    · exact hnone hr
  | logInClicked vc =>
    rw [start, LogInVC.logInClicked] at hr
    split at hr
    · exact hone rfl hr
    · exact hnone hr
  | viewWillAppear =>
    rw [start, MapVC.viewWillAppear_apply live] at hr
    obtain ⟨user, -, rfl⟩ := Option.map_eq_some_iff.mp (Option.mem_toList.mp hr)
    rfl
  | logOutClicked signOut =>
    cases signOut with
    | true => exact hnone hr
    | false => exact hnone hr
  | updateClicked vc selectedEditID =>
    cases selectedEditID with
    | email =>
      simp only [start, EditAccountVC.updateClicked, EditAccountVC.withUser] at hr
      split at hr
      · split at hr
        · exact hone rfl hr
        · exact hnone hr
      · exact hnone hr
    | _ => cases h
  | calloutTapped p => exact absurd rfl (htap p)
  | addPlaylistClicked vc => exact absurd rfl (hcreate vc)
  | _ => cases h

/-- **An operation without links** records none. -/
theorem collect_linkless {p : Device × List Request} (hp : ∀ r ∈ p.2, linkless r = true)
    (h : Completes (app P) allSucceed (running b l c p) ls s') :
    collect (app P) linksOf (running b l c p) ls = [] := by
  have hend := h.1.history (w := linksOf)
    (I := fun links s => links = [] ∧ ∀ j ∈ s.jobs, linkless j.request = true) ?_ (h := [])
    ⟨rfl, fun j hj => ?_⟩
  · exact hend.1
  · rintro links s ℓ s' ⟨rfl, hjobs⟩ guard move
    refine ⟨?_, ?_⟩
    · cases move with
      | @effect js₁ js₂ j m split waiting =>
        have hnone : ∀ (uid : ℕ), linkBy uid s.store j.request = none :=
          fun uid => linkBy_linkless (hjobs j (mem_of_split split))
        simp [linksOf, getElem?_split split, hnone]
      | event | fail | deliver => rfl
    · refine move.requests (Q := fun _ r => linkless r = true) hjobs ?_ ?_
      · rintro c e rfl
        exact guard.2.elim
      · intro js₁ j js₂ m a _ split _ _
        exact resume_linkless (hjobs j (mem_of_split split)) m a _
  · obtain ⟨r, hr, rfl⟩ := List.mem_map.mp hj
    exact hp r hr

theorem collect_event {e : Event} (hs : s.jobs = []) (live : (s.locals c).crashed = false) :
    collect (app P) linksOf s (.event c e :: ls) =
      collect (app P) linksOf (running s.store s.locals c (start e (s.locals c))) ls := by
  have move : step (app P) s (.event c e) =
      some (running s.store s.locals c (start e (s.locals c))) := by
    refine step_iff (app P) |>.mpr ?_
    have hstep := Step.event (P := app P) (s := s) c e (by simpa using live)
    rw [hs] at hstep
    exact hstep
  rw [collect_cons move]
  rfl

def Keeping (links : List Link) (s : State) : Prop := Settled s ∧ LinksKept links s.store

namespace Recognises

theorem of_signedOut (huser : v.currentUser = none) (hshown : v.mapShown = false) :
    Recognises b v := by
  refine ⟨fun user huser' => ?_, fun user huser' => ?_, fun _ => hshown⟩
  · rw [huser] at huser'
    cases huser'
  · rw [huser] at huser'
    cases huser'

theorem of_known (huser : v.currentUser = some user) (ha : b.accounts.get? user.uid = some a)
    (hemail : a.email = user.email)
    (hshared : v.mapShown = true → v.sharedUserInfo.email = user.email) : Recognises b v := by
  refine ⟨fun user' huser' => ?_, fun user' huser' hshown => ?_, fun hnone => ?_⟩
  · obtain rfl := Option.some.inj (huser.symm.trans huser')
    exact ⟨a, ha, hemail⟩
  · obtain rfl := Option.some.inj (huser.symm.trans huser')
    exact hshared hshown
  · rw [huser] at hnone
    cases hnone

theorem mono (h : Recognises b v) (haccounts : ∀ user a, v.currentUser = some user →
    b.accounts.get? user.uid = some a →
      ∃ a', b'.accounts.get? user.uid = some a' ∧ a'.email = a.email) : Recognises b' v := by
  refine ⟨fun user huser => ?_, h.email, h.signedOut⟩
  obtain ⟨a, ha, hemail⟩ := h.known user huser
  obtain ⟨a', ha', hsame⟩ := haccounts user a huser ha
  exact ⟨a', ha', hsame.trans hemail⟩

end Recognises

/-- An operation of the device `c` that leaves the users as they are. -/
theorem Settled.still (h : Settled s) (husers : SameUsers s.store s'.store)
    (hothers : ∀ c', c' ≠ c → s'.locals c' = s.locals c')
    (hself : Recognises s.store (s'.locals c).userView) : Settled s' := by
  refine ⟨husers.oneToOne h.oneToOne, fun id f hf => ?_, fun c' => ?_⟩
  · have hregistration := congrFun husers.registrations id
    rw [registration, registration, hf] at hregistration
    obtain ⟨f₀, hf₀, heq⟩ := Option.map_eq_some_iff.mp hregistration.symm
    obtain ⟨n, hn⟩ := h.named id f₀ hf₀
    exact ⟨n, (congrArg Prod.fst heq).symm.trans hn⟩
  · refine Recognises.mono ?_ (fun user a _ ha => ⟨a, by rw [husers.accounts]; exact ha, rfl⟩)
    by_cases hc : c' = c
    · rw [hc]
      exact hself
    · rw [hothers c' hc]
      exact h.recognises c'

theorem Keeping.still (h : Keeping links s) (hself : Recognises s.store d'.userView) :
    Keeping links (running s.store s.locals c (d', [])) := by
  refine ⟨h.1.still (c := c) ⟨rfl, rfl⟩ (fun c' hc' => Function.update_of_ne hc' ..) ?_, h.2⟩
  show Recognises s.store (Function.update s.locals c d' c).userView
  rw [Function.update_self]
  exact hself

theorem withCredentials_self (b : Backend) (uid : ℕ) (a : Credentials) :
    (withCredentials b uid a).accounts.get? uid = some a := by
  rw [withCredentials, Backend.setAccounts_accounts, Collection.get?_upsert_self]

theorem withCredentials_of_ne {uid' : ℕ} (h : uid' ≠ uid) :
    (withCredentials b uid a).accounts.get? uid' = b.accounts.get? uid' := by
  rw [withCredentials, Backend.setAccounts_accounts, Collection.get?_upsert, if_neg h]

namespace Keeping

/-! ### Signing up, logging in, the map and logging out -/

theorem signUp (h : Keeping links s) (hnobody : (s.locals c).currentUser = none)
    (hc : Completes (app P) allSucceed
      (running s.store s.locals c (SignUpVC.signUpClicked vc (s.locals c))) ls s') :
    Keeping links s' := by
  have hshown : (s.locals c).mapShown = false := (h.1.recognises c).signedOut hnobody
  obtain ⟨b', d', rfl, ⟨rfl, hview, -⟩ | ⟨haccepted, hview, ⟨m, -, rfl⟩ | ⟨hmay, -⟩⟩⟩ :=
    signUp_settles hc
  · exact h.still (hview ▸ h.1.recognises c)
  · -- the new account has an ID of its own
    have hget : ∀ uid a, s.store.accounts.get? uid = some a →
        (withAccount s.store (s.locals c) vc).accounts.get? uid = some a := by
      intro uid a ha
      refine (s.store.accounts.get?_add _ uid).trans (if_neg ?_ |>.trans ha)
      rintro rfl
      rw [s.store.accounts.vacant _ (Nat.le_refl _)] at ha
      cases ha
    have honeToOne := haccepted.oneToOne (P := P) h.1.oneToOne m
    refine ⟨⟨honeToOne, fun id f hf => ?_, fun c' => ?_⟩, h.2.frame honeToOne
      (fun uid a ha => Or.inl ⟨a, hget uid a ha, rfl⟩) (fun coll id => hasFound_addDocument (P := P))
      (fun id v hv => field_addDocument_of_some (P := P) hv)⟩
    · rw [running, newUserInfo, doc?_addDocument] at hf
      split at hf
      · cases hf
        exact ⟨_, rfl⟩
      · exact h.1.named id f hf
    · show Recognises _ (Function.update s.locals c d' c').userView
      by_cases hc' : c' = c
      · rw [hc', Function.update_self, hview]
        refine .of_known (a := ⟨_, _⟩) rfl (s.store.accounts.get?_add_next _) rfl (fun hmap => ?_)
        rw [hshown] at hmap
        cases hmap
      · rw [Function.update_of_ne hc']
        exact (h.1.recognises c').mono (fun user a _ ha => ⟨a, hget user.uid a ha, rfl⟩)
  · cases hmay

theorem logIn (h : Keeping links s) (hnobody : (s.locals c).currentUser = none)
    (hc : Completes (app P) allSucceed
      (running s.store s.locals c (LogInVC.logInClicked vc (s.locals c))) ls s') :
    Keeping links s' := by
  have hshown : (s.locals c).mapShown = false := (h.1.recognises c).signedOut hnobody
  obtain ⟨d', rfl, hview | ⟨uid, a, ha, hview⟩⟩ := logIn_settles hc
  · exact h.still (hview ▸ h.1.recognises c)
  · refine h.still ?_
    rw [hview]
    refine .of_known rfl ha rfl (fun hmap => ?_)
    rw [hshown] at hmap
    cases hmap

theorem viewWillAppear (h : Keeping links s) (live : (s.locals c).crashed = false)
    (huser : (s.locals c).currentUser = some user) (hc : Completes (app P) allSucceed
      (running s.store s.locals c (MapVC.viewWillAppear (s.locals c))) ls s') :
    Keeping links s' := by
  obtain ⟨d', rfl, hcurrent, -, hmay | hload⟩ := viewWillAppear_settles live huser hc
  · cases hmay
  obtain ⟨a, ha, hemail⟩ := (h.1.recognises c).known user huser
  refine h.still (.of_known hcurrent ha hemail (fun _ => ?_))
  rcases query_cases (oneToOne_iff.mp h.1.oneToOne).right user.email with
    ⟨-, hnone⟩ | ⟨id, f, hone, hf, he⟩
  · obtain ⟨id, -, -, honly⟩ := h.1.oneToOne.own ha
    exact absurd ((honly id).mpr rfl) (hemail ▸ hnone id)
  · obtain ⟨n, hn⟩ := h.1.named id f hf
    have hloaded : UserSingleton.reset.load f = { UserSingleton.reset.load f with
        email := user.email } := by
      rw [UserSingleton.load, getString, getString, hn, he]
      rfl
    rw [Device.userView, hload, hone]
    show (UserSingleton.reset.load f).email = user.email
    rw [hloaded]

theorem logOut (h : Keeping links s) {signOut : Bool} (hc : Completes (app P) allSucceed
      (running s.store s.locals c (ProfileVC.logOutClicked signOut (s.locals c))) ls s') :
    Keeping links s' := by
  cases signOut with
  | true =>
    obtain rfl := hc.done
    exact h.still (.of_signedOut rfl rfl)
  | false =>
    obtain rfl := hc.done
    exact h.still (h.1.recognises c)

/-! ### Changing the email -/

/-- **A change of the email** that loses no link. -/
theorem updateEmail (h : Keeping links s) (live : (s.locals c).crashed = false)
    (hguard : LosesNoLink s c (.updateClicked vc .email)) (hc : Completes (app P) allSucceed
      (running s.store s.locals c (EditAccountVC.updateClicked vc .email (s.locals c))) ls s') :
    Keeping links s' := by
  obtain ⟨b', d', rfl, ⟨rfl, hview, -⟩ | ⟨user, a, haccepted, hview, u, hback⟩⟩ :=
    updateEmail_settles live (oneToOne_iff.mp h.1.oneToOne).right hc
  · exact h.still (hview ▸ h.1.recognises c)
  have hlosesNone := hguard user a haccepted
  obtain ⟨a', ha', hemail⟩ := (h.1.recognises c).known user haccepted.signedIn
  obtain rfl : a' = a := Option.some.inj (ha'.symm.trans haccepted.account)
  obtain ⟨id, m, hid, rfl⟩ := found_of_writesBack h.1.oneToOne ha' hemail
    Bool.false_ne_true (fun _ => Bool.false_ne_true) hback
  have honeToOne := oneToOne_rewritten (P := P) (m := m) (k := .email vc) h.1.oneToOne ha'
    (hemail ▸ hid) (freshFor_of_emailTaken haccepted.free a'.password) rfl
  have hself := withCredentials_self s.store user.uid
    ⟨(s.locals c).text vc .desiredTextField, a'.password⟩
  refine ⟨⟨honeToOne, fun id' f hf => ?_, fun c' => ?_⟩, ?_⟩
  · rw [running, doc?_setData] at hf
    split at hf
    · next hand =>
      obtain ⟨f₀, hf₀, -⟩ := Option.bind_eq_some_iff.mp hid
      obtain ⟨n, hn⟩ := h.1.named id f₀ hf₀
      refine ⟨n, ?_⟩
      rw [show (withCredentials s.store user.uid _).doc? .userInfo id = some f₀ from hf₀] at hf
      obtain rfl := Option.some.inj hf
      have hfield : Field.username ≠ (WriteBack.email vc).field := by
        rw [WriteBack.field]
        decide
      rw [WriteBack.merge_data, if_neg hfield]
      exact hn
    · exact h.1.named id' f hf
  · show Recognises _ (Function.update s.locals c d' c').userView
    by_cases hc' : c' = c
    · rw [hc', Function.update_self, hview]
      exact .of_known rfl hself rfl (fun _ => rfl)
    · rw [Function.update_of_ne hc']
      refine (h.1.recognises c').mono (fun user' a huser' ha => ?_)
      by_cases huid : user'.uid = user.uid
      · rcases hlosesNone with hsame | ⟨-, hothers⟩
        · rw [huid] at ha ⊢
          obtain rfl := Option.some.inj (ha'.symm.trans ha)
          exact ⟨_, hself, hsame⟩
        · exact absurd huid (hothers c' hc' user' huser')
      · exact ⟨a, (withCredentials_of_ne huid).trans ha, rfl⟩
  · refine h.2.frame honeToOne (fun uid a ha => ?_) (fun coll id' => ?_) (fun id' v hv => ?_)
    · by_cases huid : uid = user.uid
      · subst huid
        obtain rfl := Option.some.inj (ha'.symm.trans ha)
        rcases hlosesNone with hsame | ⟨hunlinked, -⟩
        · exact Or.inl ⟨_, hself, hsame⟩
        · exact Or.inr hunlinked
      · exact Or.inl ⟨a, (withCredentials_of_ne huid).trans ha, rfl⟩
    · show _ ⊆ ((Operation.setData .userInfo id _).exec P m _).1.hasFound coll id'
      rw [hasFound_setData_of_absent rfl]
      exact fun x hx => hx
    · exact (field_setData_of_ne (P := P)
        (fun h : CollectionName.userPlaylists = .userInfo => absurd h (by decide))).trans hv

/-! ### Taps and creations -/

/-- When the last job of a tap or of a creation is done, all is settled again. -/
theorem of_busy (h : Settled s) (hbusy : Busy c user s links s') (hnamed : s.store.accounts.get? user.uid = some a)
    (hemail : a.email = user.email) : Keeping links s' := by
  refine ⟨h.still (c := c) hbusy.users hbusy.others ?_, hbusy.kept⟩
  have hcurrent : (s'.locals c).currentUser = some user := congrArg Prod.fst hbusy.identity
  exact .of_known hcurrent hnamed hemail (fun _ => congrArg (fun p => p.2.2) hbusy.identity)

/-- **A tap or a creation**, with its first calls. -/
theorem of_linking {rs : List Request} (h : Keeping links s)
    (huser : (s.locals c).currentUser = some user) (hshown : (s.locals c).mapShown = true)
    (hcalls : ∀ r ∈ rs, Linking c user.email s.store (.issue c r))
    (hapart : (rs.map (Job.issue c : Request → Job)).Pairwise Unrelated)
    (hc : Completes (app P) allSucceed (running s.store s.locals c (s.locals c, rs)) ls s') :
    Keeping (links ++ collect (app P) linksOf (running s.store s.locals c (s.locals c, rs)) ls) s' := by
  obtain ⟨a, ha, hemail⟩ := (h.1.recognises c).known user huser
  have hidle : Busy c user s links (running s.store s.locals c (s.locals c, rs)) := by
    refine ⟨fun j hj => ?_, hapart, ⟨rfl, rfl⟩, ?_, fun c' hc' => Function.update_of_ne hc' .., h.2⟩
    · obtain ⟨r, hr, rfl⟩ := List.mem_map.mp hj
      exact hcalls r hr
    · show (Function.update s.locals c (s.locals c) c).identity = _
      rw [Function.update_self, Device.identity, huser, hshown]
      exact congrArg (fun e => (some user, true, e)) ((h.1.recognises c).email user huser hshown)
  exact of_busy h.1 (busy_completes h.1.oneToOne ha hemail hidle hc) ha hemail

theorem calloutTapped {p : Coordinate} (h : Keeping links s) (live : (s.locals c).crashed = false)
    (huser : (s.locals c).currentUser = some user) (hshown : (s.locals c).mapShown = true)
    (hc : Completes (app P) allSucceed
      (running s.store s.locals c (MapVC.calloutTapped p (s.locals c))) ls s') :
    Keeping (links ++ collect (app P) linksOf
      (running s.store s.locals c (MapVC.calloutTapped p (s.locals c))) ls) s' := by
  rw [MapVC.calloutTapped_apply live] at hc ⊢
  refine h.of_linking huser hshown (fun r hr => ?_) ?_ hc
  · rcases List.mem_cons.mp hr with rfl | hr
    · exact .tapped .masterPlaylists p nofun
    · obtain rfl := List.mem_singleton.mp hr
      exact .tapped .userPlaylists p nofun
  · -- the two queries are about different collections
    refine List.pairwise_pair.mpr (fun coll id hand => ?_)
    have hcontra : CollectionName.masterPlaylists = .userPlaylists := hand.1.symm.trans hand.2
    cases hcontra

theorem addPlaylist (h : Keeping links s) (live : (s.locals c).crashed = false)
    (huser : (s.locals c).currentUser = some user) (hshown : (s.locals c).mapShown = true)
    (hc : Completes (app P) allSucceed
      (running s.store s.locals c (AddPlaylistVC.addPlaylistClicked vc (s.locals c))) ls s') :
    Keeping (links ++ collect (app P) linksOf
      (running s.store s.locals c (AddPlaylistVC.addPlaylistClicked vc (s.locals c))) ls) s' := by
  cases haccepts : AddPlaylistVC.accepts (s.locals c) vc with
  | true =>
    have hemail := (h.1.recognises c).email user huser hshown
    rw [AddPlaylistVC.addPlaylistClicked_accepted live haccepts] at hc ⊢
    refine h.of_linking huser hshown (fun r hr => ?_) ?_ hc
    · rcases List.mem_cons.mp hr with rfl | hr
      · exact hemail ▸ .adding _ _ _ _ none nofun
      · obtain rfl := List.mem_singleton.mp hr
        exact hemail ▸ .asking (.created _) (Or.inr ⟨_, rfl⟩)
    · exact List.pairwise_pair.mpr (fun coll id hand => hand.2)
  | false =>
    obtain ⟨l', hclick⟩ := AddPlaylistVC.addPlaylistClicked_rejected haccepts
    rw [hclick] at hc ⊢
    rw [collect_linkless (fun r hr => absurd hr List.not_mem_nil) hc, List.append_nil]
    obtain rfl := hc.done
    exact h.still (h.1.recognises c)

/-! ### Every operation -/

theorem operation {e : Event} (h : Keeping links s) (hs : s.jobs = [])
    (hlinking : linking (s.locals c) e = true) (hguard : LosesNoLink s c e)
    (live : (s.locals c).crashed = false)
    (hc : Completes (app P) allSucceed (running s.store s.locals c (start e (s.locals c))) ls s') :
    Keeping (links ++ collect (app P) linksOf s (.event c e :: ls)) s' := by
  have hatMap : ((s.locals c).currentUser.isSome && (s.locals c).mapShown) = true →
      ∃ user, (s.locals c).currentUser = some user ∧ (s.locals c).mapShown = true := by
    intro hand
    obtain ⟨hsome, hshown⟩ := Bool.and_eq_true_iff.mp hand
    obtain ⟨user, huser⟩ := Option.isSome_iff_exists.mp hsome
    exact ⟨user, huser, hshown⟩
  rw [collect_event hs live]
  by_cases hlinks : (∀ p, e ≠ .calloutTapped p) ∧ ∀ vc, e ≠ .addPlaylistClicked vc
  · rw [collect_linkless (start_linkless hlinking live hlinks.1 hlinks.2) hc, List.append_nil]
    cases e with
    | editText vc field text =>
      obtain rfl := hc.done
      exact h.still (h.1.recognises c)
    | mapLongPressed vc coords =>
      rw [start, AddPlaylistVC.mapLongPressed, andThen_of_live (by exact live)] at hc
      obtain rfl := hc.done
      exact h.still (h.1.recognises c)
    | signUpClicked vc => exact h.signUp (Option.isNone_iff_eq_none.mp hlinking) hc
    | logInClicked vc => exact h.logIn (Option.isNone_iff_eq_none.mp hlinking) hc
    | viewWillAppear =>
      obtain ⟨user, huser⟩ := Option.isSome_iff_exists.mp hlinking
      exact h.viewWillAppear live huser hc
    | logOutClicked signOut => exact h.logOut hc
    | updateClicked vc selectedEditID =>
      cases selectedEditID with
      | email => exact h.updateEmail live hguard hc
      | _ => cases hlinking
    | calloutTapped p => exact absurd rfl (hlinks.1 p)
    | addPlaylistClicked vc => exact absurd rfl (hlinks.2 vc)
    | _ => cases hlinking
  · cases e with
    | calloutTapped p =>
      obtain ⟨user, huser, hshown⟩ := hatMap hlinking
      exact h.calloutTapped live huser hshown hc
    | addPlaylistClicked vc =>
      obtain ⟨user, huser, hshown⟩ := hatMap hlinking
      exact h.addPlaylist live huser hshown hc
    | _ => exact (hlinks ⟨fun _ h => (by cases h), fun _ h => (by cases h)⟩).elim

end Keeping

/-- **Links stay** in every sequential run without failures whose changes of the email lose
none. -/
theorem links_kept (hrun : Run (app P) (sequentially allSucceed (fun s c e =>
      linking (s.locals c) e = true ∧ LosesNoLink s c e)) s ls s')
    (hs : s.jobs = []) (hs' : s'.jobs = []) (h₀ : Settled s) :
    LinksKept (collect (app P) linksOf s ls) s'.store :=
  (hrun.sequential_history (I := Keeping) (fun _ _ _ _ _ _ h hs hE live hc =>
    h.operation hs hE.1 hE.2 (by simpa using live) hc) hs' hs ⟨h₀, .nil⟩ : Keeping ([] ++ _) s').2

/-! ### Ann -/

def annCreatesDusk : List Label :=
  [.event 0 (.editText 2 .titleTextField "Dusk"),
    .event 0 (.editText 2 .linkTextField "https://open.spotify.com/playlist/1"),
    .event 0 (.addPlaylistClicked 2), .effect 0 0, .deliver 0 0, .effect 0 0, .deliver 0 0,
    .effect 0 0, .deliver 0 0]

def annTapsDusk : List Label :=
  [.event 0 (.calloutTapped ⟨.fin 0, .fin 0⟩), .effect 0 0, .deliver 0 0, .effect 0 0, .deliver 0 0,
    .effect 0 0, .deliver 0 0, .effect 0 0, .deliver 0 0, .effect 0 0, .deliver 0 0]

def annRenamedFirst : List Label := annRenamed ++ annCreatesDusk ++ annTapsDusk

def annRenamedLast : List Label :=
  annRenamed.take 11 ++ annCreatesDusk ++ annTapsDusk ++ annRenamed.drop 11 ++ annTapsDusk

/-- The check of `LosesNoLink` for the device `0`. -/
def losesNoLink (s : State) : Event → Bool
  | .updateClicked _ .email => (s.locals 0).currentUser.all (fun user =>
    (s.store.accounts.get? user.uid).all (fun a => Unlinked s.store a.email))
  | _ => true

theorem losesNoLink_sound {s : State} {e : Event} (h : losesNoLink s e = true)
    (hothers : ∀ c, c ≠ 0 → s.locals c = .launched) : LosesNoLink s 0 e := by
  cases e with
  | updateClicked vc selectedEditID =>
    cases selectedEditID with
    | email =>
      intro user a haccepted
      rw [losesNoLink, haccepted.signedIn, Option.all_some, haccepted.account, Option.all_some] at h
      refine Or.inr ⟨of_decide_eq_true h, fun c' hc' user' huser' => ?_⟩
      rw [hothers c' hc'] at huser'
      cases huser'
    | _ => trivial
  | _ => trivial

theorem annRenamedFirst_kept : ∃ s', Run (app .sample) (sequentially allSucceed (fun s c e =>
      linking (s.locals c) e = true ∧ LosesNoLink s c e)) nobody annRenamedFirst s' ∧
    collect (app .sample) linksOf nobody annRenamedFirst =
      [.created 0 0, .credited 0 .userPlaylists 0] ∧
    LinksKept (collect (app .sample) linksOf nobody annRenamedFirst) s'.store := by
  obtain ⟨s', hrun, hend⟩ := Run.exists_of_run (show (run (app .sample)
    (solo 0 (fun s e => linking (s.locals 0) e && losesNoLink s e)) nobody annRenamedFirst).any
      (fun s' => s'.jobs.isEmpty) = true by decide +kernel)
  have hsequential := (hrun.solo (q := allSucceed) (l := fun _ => .launched) (fun _ => rfl)
    nofun (fun _ _ => rfl)).mono (H := sequentially allSucceed (fun s c e =>
      linking (s.locals c) e = true ∧ LosesNoLink s c e)) (fun s ℓ guard => ?_)
  · exact ⟨s', hsequential, by decide +kernel, links_kept hsequential rfl (List.isEmpty_iff.mp hend)
      nobody_consistent.settled⟩
  · cases ℓ with
    | event c e =>
      obtain ⟨hs, hboth, rfl, hothers⟩ := guard
      obtain ⟨hlinking, hloses⟩ := Bool.and_eq_true_iff.mp hboth
      exact ⟨hs, hlinking, losesNoLink_sound hloses hothers⟩
    | effect i m => exact guard
    | fail i err => exact guard
    | deliver i m => exact guard

/-- **Links are lost**: Ann is credited for one playlist twice, and the playlist that she
created has an email that is hers no more. -/
theorem links_lost : ∃ s', Run (app .sample) (sequentially allSucceed (fun s c e =>
      linking (s.locals c) e = true)) nobody annRenamedLast s' ∧ s'.jobs = [] ∧
    (collect (app .sample) linksOf nobody annRenamedLast).count (.credited 0 .userPlaylists 0) = 2 ∧
    .created 0 0 ∈ collect (app .sample) linksOf nobody annRenamedLast ∧
    s'.store.accounts.get? 0 = some ⟨"ann@work.org", "secret"⟩ ∧
    s'.store.field .userPlaylists 0 .email = some (.string "ann@mail.org") ∧
    ¬ LinksKept (collect (app .sample) linksOf nobody annRenamedLast) s'.store := by
  obtain ⟨s', hrun, hend⟩ := Run.exists_of_run (show (run (app .sample)
    (solo 0 (fun s e => linking (s.locals 0) e)) nobody annRenamedLast).any (fun s' =>
      s'.jobs.isEmpty && s'.store.accounts.get? 0 = some ⟨"ann@work.org", "secret"⟩ &&
      s'.store.field .userPlaylists 0 .email = some (.string "ann@mail.org")) = true by decide +kernel)
  simp only [Bool.and_eq_true, decide_eq_true_eq, List.isEmpty_iff] at hend
  have htwice : (collect (app .sample) linksOf nobody annRenamedLast).count
      (.credited 0 .userPlaylists 0) = 2 := by decide +kernel
  refine ⟨s', (hrun.solo (q := allSucceed) (l := fun _ => .launched) (fun _ => rfl) nofun
    (fun _ _ => rfl)).mono (fun s ℓ guard => ?_), hend.1.1, htwice, by decide +kernel, hend.1.2,
    hend.2, fun hkept => ?_⟩
  · cases ℓ with
    | event c e =>
      obtain ⟨hs, hlinking, rfl, -⟩ := guard
      exact ⟨hs, hlinking⟩
    | effect i m => exact guard
    | fail i err => exact guard
    | deliver i m => exact guard
  · have honce := hkept.once 0 .userPlaylists 0
    omega

end SpotiFriend

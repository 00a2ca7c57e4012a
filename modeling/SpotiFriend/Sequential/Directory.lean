import SpotiFriend.Async.Refinement
import SpotiFriend.Sequential.Consistency
import SpotiFriend.Sequential.StartUp
import SpotiFriend.Store.Directory

/-!
# The directory behind the services and the devices

Behind the calls to Auth and Firestore and the copies on the devices the app is to be a
`Directory`: accounts with a profile each, and users signed in on devices.  `accountOf` reads
an account out of the services, the credentials from Auth and the profile as `getUserInfo`
would load it, and `inputOf` says what an event asks the directory for.

* `Consistent.directory`: the directory that a consistent state stands for;
* `Consistent.accountOf_put`: the accounts after a change of one account and its document;
* `Consistent.responds`: an operation is one atomic step of the directory, or none.
-/

namespace SpotiFriend

open Async SpotiFriend.Action Store

abbrev UserAccount := Account String String UserSingleton

abbrev UserInput := Input String String UserSingleton

abbrev UserDirectory := Directory ℕ ℕ String String UserSingleton

/-- The credentials of an account, and what `getUserInfo` makes of its document. -/
def accountOf (b : Backend) (uid : ℕ) : Option UserAccount :=
  (b.accounts.get? uid).map (fun a => ⟨a.email, a.password, loadedInfo b a.email⟩)

def sessionOf (s : State) (c : ℕ) : Option ℕ := (s.locals c).currentUser.map User.uid

def profileEdited (k : WriteBack) (d : Device) (A : UserAccount) : UserAccount :=
  { A with profile := k.share d A.profile }

/-- What an event asks for, if the device lets it pass. -/
def inputOf (P : Platform) (d : Device) : Event → Option UserInput
  | .signUpClicked vc =>
    if d.text vc .usernameTextField ≠ "" ∧ d.text vc .emailTextField ≠ "" ∧
        d.text vc .passwordTextField ≠ "" then
      some (.register ⟨d.text vc .emailTextField, d.text vc .passwordTextField,
        { UserSingleton.reset with
          username := d.text vc .usernameTextField
          email := d.text vc .emailTextField }⟩)
    else none
  | .logInClicked vc =>
    if d.text vc .emailTextField ≠ "" ∧ d.text vc .passwordTextField ≠ "" then
      some (.logIn (d.text vc .emailTextField) (d.text vc .passwordTextField))
    else none
  | .logOutClicked signOut => if signOut then some .logOut else none
  | .updateClicked vc .email =>
    if d.text vc .desiredTextField ≠ "" ∧
        EditAccountVC.isValidEmail (d.text vc .desiredTextField) = true then
      some (.change (fun A => ⟨d.text vc .desiredTextField, A.password,
        { A.profile with email := d.text vc .desiredTextField }⟩))
    else none
  | .updateClicked vc .password =>
    if d.text vc .desiredTextField ≠ "" then
      some (.change (fun A => { A with password := d.text vc .desiredTextField }))
    else none
  | .updateClicked vc .username => some (.change (profileEdited (.username vc) d))
  | .updateMapRadiusClicked vc => some (.change (profileEdited (.radius vc) d))
  | .addPlaylistClicked _ =>
    some (.attempt (profileEdited (.created (d.sharedUserInfo.totalPlaylistsCreated + 1)) d))
  | .storeProfilePic uuid => some (.attempt (profileEdited (.picture (P.downloadURL (uuid ++ ".jpg"))) d))
  | .calloutTapped _ => some (.attempt (profileEdited .found d))
  | .deleteAccountClicked => some .remove
  | _ => none

variable {P : Platform} {may : Request → Bool → Prop} {b b' : Backend} {c : ℕ} {d d' : Device}
  {l : ℕ → Device} {vc : VC} {ls : List Label} {s s' : State} {user : User} {uid uid' id : ℕ} {a a' : Credentials}
  {f : Fields} {u : UserSingleton} {k : WriteBack} {A : UserAccount}

/-! ### Reading an account -/

theorem accountOf_eq (h : OneToOne b) (ha : b.accounts.get? uid = some a)
    (hf : b.doc? .userInfo id = some f) (he : f .email = some (.string a.email))
    (hagrees : Agrees u f) : accountOf b uid = some ⟨a.email, a.password, u⟩ := by
  have hkeyed := (oneToOne_iff.mp h).right
  rw [accountOf, ha, Option.map_some, loadedInfo]
  rcases query_cases hkeyed a.email with ⟨-, hnone⟩ | ⟨id', f', hone, hf', he'⟩
  · refine absurd ?_ (hnone id)
    rw [Backend.field, hf]
    exact he
  · obtain rfl : id' = id := hkeyed id' id _ _ (documentLogin_eq_some.mpr ⟨f', hf', rfl⟩)
      (documentLogin_eq_some.mpr ⟨f, hf, rfl⟩) (he'.trans he.symm)
    obtain rfl := Option.some.inj (hf'.symm.trans hf)
    rw [hone, List.foldl_cons, List.foldl_nil, hagrees.load]

theorem accountOf_of_vacant (ha : b.accounts.get? uid = none) : accountOf b uid = none := by
  rw [accountOf, ha, Option.map_none]

theorem accountOf_congr (haccounts : b'.accounts = b.accounts)
    (huserInfo : b'.firestore .userInfo = b.firestore .userInfo) : accountOf b' = accountOf b := by
  funext uid
  have hdocs : ∀ email, loadedInfo b' email = loadedInfo b email := by
    intro email
    rw [loadedInfo, loadedInfo, Backend.getDocuments_congr huserInfo]
  rw [accountOf, accountOf, haccounts]
  simp only [hdocs]

namespace Consistent

/-- The document of an account, and what a device can hold of it. -/
theorem document (h : Consistent s) (ha : s.store.accounts.get? uid = some a) : ∃ id f u,
    s.store.doc? .userInfo id = some f ∧ f .email = some (.string a.email) ∧ Agrees u f ∧
      accountOf s.store uid = some ⟨a.email, a.password, u⟩ := by
  obtain ⟨id, -, -, honly⟩ := h.oneToOne.own ha
  obtain ⟨f, hf, he⟩ := Option.bind_eq_some_iff.mp ((honly id).mpr rfl)
  obtain ⟨u, hagrees⟩ := h.legible id f hf
  exact ⟨id, f, u, hf, he, hagrees, accountOf_eq h.oneToOne ha hf he hagrees⟩

theorem shown (h : Consistent s) (huser : (s.locals c).currentUser = some user)
    (hshown : (s.locals c).mapShown = true) : ∃ a, s.store.accounts.get? user.uid = some a ∧
      a.email = user.email ∧
      accountOf s.store user.uid = some ⟨a.email, a.password, (s.locals c).sharedUserInfo⟩ := by
  obtain ⟨a, ha, hemail⟩ := (h.inStep c).known user huser
  obtain ⟨id, f, hf, he, hagrees⟩ := (h.inStep c).agrees user huser hshown
  exact ⟨a, ha, hemail, accountOf_eq h.oneToOne ha hf (by rw [hemail]; exact he) hagrees⟩

/-- The directory that the services and the devices make up. -/
def directory (h : Consistent s) : UserDirectory where
  account := accountOf s.store
  session := sessionOf s
  keyed := by
    intro uid uid' A A' hA hA' hemail
    obtain ⟨a, ha, rfl⟩ := Option.map_eq_some_iff.mp hA
    obtain ⟨a', ha', rfl⟩ := Option.map_eq_some_iff.mp hA'
    exact h.oneToOne.distinct uid uid' a a' ha ha' hemail
  known := by
    intro c uid huid
    obtain ⟨user, huser, rfl⟩ := Option.map_eq_some_iff.mp huid
    obtain ⟨a, ha, -⟩ := (h.inStep c).known user huser
    rw [accountOf, ha]
    rfl

theorem accountOf_other (h : Consistent s) (h' : OneToOne b) (hconcerns : Concerns uid id s.store b)
    (hne : uid' ≠ uid) : accountOf b uid' = accountOf s.store uid' := by
  have hsame := hconcerns.accounts uid' hne
  cases ha : s.store.accounts.get? uid' with
  | none => rw [accountOf_of_vacant ha, accountOf_of_vacant (hsame.trans ha)]
  | some a =>
    obtain ⟨id', f, u, hf, he, hagrees, hread⟩ := h.document ha
    have hid : id' ≠ id := by
      rintro rfl
      refine hconcerns.own uid' a hne ha ?_
      rw [Backend.field, hf]
      exact he
    rw [hread]
    exact accountOf_eq h' (hsame.trans ha) ((hconcerns.documents id' hid).trans hf) he hagrees

/-- **The accounts after a change** of one account and its document. -/
theorem accountOf_put (h : Consistent s) (h' : OneToOne b) (hconcerns : Concerns uid id s.store b)
    (ha : b.accounts.get? uid = some a) (hf : b.doc? .userInfo id = some f)
    (he : f .email = some (.string a.email)) (hagrees : Agrees u f) :
    accountOf b = Function.update (accountOf s.store) uid (some ⟨a.email, a.password, u⟩) := by
  funext uid'
  by_cases hne : uid' = uid
  · rw [hne, Function.update_self]
    exact accountOf_eq h' ha hf he hagrees
  · rw [Function.update_of_ne hne]
    exact h.accountOf_other h' hconcerns hne

end Consistent

/-! ### Operations on the accounts -/

theorem sessionOf_update (hlocals : s'.locals = Function.update s.locals c d') :
    sessionOf s' = Function.update (sessionOf s) c (d'.currentUser.map User.uid) := by
  funext c'
  rw [sessionOf, hlocals]
  by_cases hc : c' = c
  · rw [hc, Function.update_self, Function.update_self]
  · rw [Function.update_of_ne hc, Function.update_of_ne hc]
    rfl

theorem sessionOf_of_user (huser : (s.locals c).currentUser = some user) :
    sessionOf s c = some user.uid := by
  rw [sessionOf, huser]
  rfl

/-- The same user is signed in after a move of the client as before. -/
theorem sessionOf_same (hlocals : s'.locals = Function.update s.locals c d')
    (hd : d'.currentUser.map User.uid = sessionOf s c) : sessionOf s' = sessionOf s := by
  rw [sessionOf_update hlocals, hd, Function.update_eq_self]

/-- A log-in is refused for a reason, or the device has the user of the account with the email
and the password. -/
theorem logIn_cases (h : Completes (app P) may (running b l c (LogInVC.logInClicked vc d)) ls s') :
    ∃ d', s' = running b l c (d', []) ∧ (
      (d'.currentUser = d.currentUser ∧ ((d.text vc .emailTextField ≠ "" ∧
          d.text vc .passwordTextField ≠ "") →
        may (.signIn (d.text vc .emailTextField) (d.text vc .passwordTextField)) false ∨
        b.signInWith (d.text vc .emailTextField) (d.text vc .passwordTextField) = none)) ∨
      (d.text vc .emailTextField ≠ "" ∧ d.text vc .passwordTextField ≠ "") ∧ ∃ uid,
        b.accounts.get? uid = some ⟨d.text vc .emailTextField, d.text vc .passwordTextField⟩ ∧
        d'.currentUser = some ⟨uid, d.text vc .emailTextField⟩) := by
  rw [LogInVC.logInClicked] at h
  split at h
  · next hfilled =>
    obtain ⟨-, reply, b₁, m, ls₁, hcall, h₁⟩ := h.call
    cases hcall with
    | done m' hmay =>
      simp only [Operation.exec] at h₁
      cases hfound : b.signInWith (d.text vc .emailTextField) (d.text vc .passwordTextField) with
      | some uid =>
        rw [hfound] at h₁
        obtain rfl := h₁.done
        obtain ⟨a, ha, rfl⟩ := Option.map_eq_some_iff.mp hfound
        have hlogin : a.data = ⟨d.text vc .emailTextField, d.text vc .passwordTextField⟩ := by
          simpa using List.find?_some ha
        have hget := Collection.mem_docs.mp (List.mem_of_find?_eq_some ha)
        exact ⟨_, rfl, Or.inr ⟨hfilled, a.id, hlogin ▸ hget, rfl⟩⟩
      | none =>
        rw [hfound] at h₁
        obtain rfl := h₁.done
        exact ⟨_, rfl, Or.inl ⟨rfl, fun _ => Or.inr rfl⟩⟩
    | failed e hmay =>
      obtain rfl := h₁.done
      exact ⟨_, rfl, Or.inl ⟨rfl, fun _ => Or.inl hmay⟩⟩
  · next hempty =>
    obtain rfl := h.done
    exact ⟨_, rfl, Or.inl ⟨rfl, fun hfilled => absurd hfilled hempty⟩⟩

/-- The new picture's URL is the one of the object that is uploaded. -/
theorem storeProfilePic_edits (live : d.crashed = false)
    (hkeyed : Keyed Prod.fst (documentLogin b)) {uuid : String}
    (hc : Completes (app P) may (running b l c (ProfileVC.storeProfilePic uuid d)) ls s') :
    ∃ d', s'.locals = Function.update l c d' ∧
      Edits (.picture (P.downloadURL (uuid ++ ".jpg"))) d.sharedUserInfo.email d b d' s'.store := by
  obtain ⟨-, reply, b₁, m, ls₁, hput, h₁⟩ := hc.call
  have hsame : b₁.firestore = b.firestore ∧ b₁.accounts = b.accounts := by
    cases hput <;> exact ⟨rfl, rfl⟩
  cases reply with
  | error e =>
    obtain rfl := h₁.done
    exact ⟨_, rfl, .idle hsame.2 (congrFun hsame.1 _) rfl⟩
  | ok _ =>
    obtain ⟨-, reply, b₂, m₂, ls₂, hurl, h₂⟩ := h₁.call
    have hanswer : b₂ = b₁ ∧ ∀ imgURL, reply = .ok imgURL → imgURL = P.downloadURL (uuid ++ ".jpg") := by
      cases hurl with
      | failed e hmay => exact ⟨rfl, fun _ h => by cases h⟩
      | done m' hmay =>
        simp only [Operation.exec]
        split
        · exact ⟨rfl, fun imgURL h => (Except.ok.inj h).symm⟩
        · exact ⟨rfl, fun _ h => by cases h⟩
    obtain ⟨rfl, hname⟩ := hanswer
    cases reply with
    | error e =>
      obtain rfl := h₂.done
      exact ⟨_, rfl, .idle hsame.2 (congrFun hsame.1 _) rfl⟩
    | ok imgURL =>
      obtain rfl := hname imgURL rfl
      have hkeyed₂ : Keyed Prod.fst (documentLogin b₂) := by
        rw [documentLogin_congr (congrFun hsame.1 _)]
        exact hkeyed
      obtain ⟨d', hlocals, hedits⟩ := pictureURLReply_settles (d := d) live hkeyed₂ h₂
      exact ⟨d', hlocals, hedits.of_firestore hsame.2 hsame.1⟩

theorem exists_of_emailTaken {o : Option ℕ} {email : String} (h : b.emailTaken o email = true) :
    ∃ uid a, b.accounts.get? uid = some a ∧ some uid ≠ o ∧ a.email = email := by
  obtain ⟨doc, hdoc, hand⟩ := List.any_eq_true.mp h
  obtain ⟨hne, hemail⟩ := Bool.and_eq_true_iff.mp hand
  exact ⟨doc.id, doc.data, Collection.mem_docs.mp hdoc, of_decide_eq_true hne,
    of_decide_eq_true hemail⟩

namespace Consistent

/-- The account that Auth has is read with its email and its password. -/
theorem read (h : Consistent s) (ha : s.store.accounts.get? uid = some a) :
    ∃ A, h.directory.account uid = some A ∧ A.email = a.email ∧ A.password = a.password := by
  refine ⟨⟨a.email, a.password, loadedInfo s.store a.email⟩, ?_, rfl, rfl⟩
  show accountOf s.store uid = _
  rw [accountOf, ha]
  rfl

theorem still_directory (h : Consistent s) (h' : Consistent s')
    (hlocals : s'.locals = Function.update s.locals c d')
    (haccounts : s'.store.accounts = s.store.accounts)
    (huserInfo : s'.store.firestore .userInfo = s.store.firestore .userInfo)
    (hd : d'.currentUser = (s.locals c).currentUser) : h'.directory = h.directory :=
  Directory.ext (accountOf_congr haccounts huserInfo)
    (sessionOf_same hlocals (by rw [hd]; rfl))

theorem signUp_responds (h : Consistent s) (h' : Consistent s')
    (hmay : ∀ r, may r false → authOnly r false) (hc : Completes (app P) may
      (running s.store s.locals c (SignUpVC.signUpClicked vc (s.locals c))) ls s') :
    h.directory.Responds (∃ r, may r false) c (inputOf P (s.locals c) (.signUpClicked vc))
      h'.directory := by
  obtain ⟨b', d', rfl, ⟨rfl, hview, hrefused⟩ | ⟨haccepted, hview, ⟨m, -, rfl⟩ | ⟨hmiss, -⟩⟩⟩ :=
    signUp_settles hc
  · rw [h.still_directory h' rfl rfl rfl (congrArg UserView.currentUser hview), inputOf]
    split
    · next hfilled =>
      refine .refused ?_
      rcases hrefused hfilled with hfalse | htaken
      · exact Or.inl ⟨_, hfalse⟩
      · refine Or.inr (fun D' heffect => ?_)
        obtain ⟨i, hvacant, hfree⟩ := heffect.register_inv
        obtain ⟨uid, a, ha, -, hemail⟩ := exists_of_emailTaken htaken
        obtain ⟨A, hA, hAemail, -⟩ := h.read ha
        obtain rfl := hfree uid A _ hA rfl (hAemail.trans hemail)
        rw [hvacant] at hA
        cases hA
    · rfl
  · have hnew : s.store.field .userInfo (s.store.firestore .userInfo).next .email = none := by
      rw [Backend.field, Backend.doc?, (s.store.firestore .userInfo).vacant _ (Nat.le_refl _)]
      rfl
    have hconcerns : Concerns s.store.accounts.next (s.store.firestore .userInfo).next s.store
        ((newUserInfo (s.locals c) vc).operation.exec P m (withAccount s.store (s.locals c) vc)).1 :=
      ⟨fun uid' hne => (s.store.accounts.get?_add _ uid').trans (if_neg hne),
        fun id' hne => (doc?_addDocument (P := P)).trans (if_neg (fun hand => hne hand.2)),
        fun _ _ _ _ => Option.eq_none_iff_forall_ne_some.mp hnew _⟩
    rw [inputOf, if_pos haccepted.filled]
    refine .taken (.of_register (i := s.store.accounts.next) ?_ ?_ ?_)
    · exact accountOf_of_vacant (s.store.accounts.vacant _ (Nat.le_refl _))
    · refine h.accountOf_put h'.oneToOne hconcerns
        (s.store.accounts.get?_add_next _) ((doc?_addDocument (P := P)).trans (if_pos ⟨rfl, rfl⟩)) rfl
        (fun k => ?_)
      cases k <;> simp [UserSingleton.Shows, Stands, Request.userDict, Entry.resolve,
        UserSingleton.reset]
    · refine (sessionOf_update rfl).trans ?_
      rw [show d'.currentUser = _ from congrArg UserView.currentUser hview]
      rfl
  · exact (hmay _ hmiss).elim

theorem logIn_responds (h : Consistent s) (h' : Consistent s') (hc : Completes (app P) may
      (running s.store s.locals c (LogInVC.logInClicked vc (s.locals c))) ls s') :
    h.directory.Responds (∃ r, may r false) c (inputOf P (s.locals c) (.logInClicked vc))
      h'.directory := by
  obtain ⟨d', rfl, ⟨hcurrent, hrefused⟩ | ⟨hfilled, uid, ha, hcurrent⟩⟩ := logIn_cases hc
  · rw [h.still_directory h' rfl rfl rfl hcurrent, inputOf]
    split
    · next hfilled =>
      refine .refused ?_
      rcases hrefused hfilled with hfalse | hnone
      · exact Or.inl ⟨_, hfalse⟩
      · refine Or.inr (fun D' heffect => ?_)
        obtain ⟨uid, A, hA, hemail, hpassword⟩ := heffect.logIn_inv
        obtain ⟨a, ha, rfl⟩ := Option.map_eq_some_iff.mp hA
        have hmissed := List.find?_eq_none.mp (Option.map_eq_none_iff.mp hnone) ⟨uid, a⟩
          (Collection.mem_docs.mpr ha)
        rw [← hemail, ← hpassword] at hmissed
        exact hmissed (decide_eq_true rfl)
    · rfl
  · obtain ⟨A, hA, hemail, hpassword⟩ := h.read ha
    have hsession : h'.directory.session = Function.update h.directory.session c (some uid) := by
      refine (sessionOf_update rfl).trans ?_
      rw [hcurrent]
      rfl
    have henter := Directory.Effect.of_enter hA (accountOf_congr rfl rfl) hsession
    rw [inputOf, if_pos hfilled]
    rw [hemail, hpassword] at henter
    exact .taken henter

theorem logOut_responds (h : Consistent s) (h' : Consistent s') {signOut : Bool}
    (hc : Completes (app P) may
      (running s.store s.locals c (ProfileVC.logOutClicked signOut (s.locals c))) ls s') :
    h.directory.Responds (∃ r, may r false) c (inputOf P (s.locals c) (.logOutClicked signOut))
      h'.directory := by
  cases signOut with
  | true =>
    obtain rfl := hc.done
    have hsession : ∀ d' : Device, d'.currentUser = none →
        sessionOf (running s.store s.locals c (d', [])) = Function.update (sessionOf s) c none := by
      intro d' hnobody
      refine (sessionOf_update rfl).trans ?_
      rw [hnobody]
      rfl
    exact .taken (.of_leave (accountOf_congr rfl rfl) (hsession _ rfl))
  | false =>
    obtain rfl := hc.done
    exact h.still_directory h' rfl rfl rfl rfl

/-! ### Operations on one account -/

theorem userInfo_setData (id : ℕ) (data : Dict) (m : ℤ) :
    ((Operation.setData .userInfo id data).exec P m b).1.firestore .userInfo =
      (b.firestore .userInfo).upsert id (data.merge m) := by
  rw [Operation.exec, Backend.setCollection_firestore, Function.update_self]

/-- **The accounts after a write** to the document of the user, with or without a change of the
credentials. -/
theorem accountOf_written (h : Consistent s) (h' : OneToOne b)
    (huser : (s.locals c).currentUser = some user) (hshown : (s.locals c).mapShown = true)
    (ha : s.store.accounts.get? user.uid = some a) (hid : s.store.field .userInfo id .email = some (.string a.email))
    (haccounts : ∀ uid, b.accounts.get? uid =
      if uid = user.uid then some a' else s.store.accounts.get? uid)
    {m : ℤ} (huserInfo : b.firestore .userInfo =
      (s.store.firestore .userInfo).upsert id ((k.data d).merge m))
    (hagrees : ∀ f, Agrees (s.locals c).sharedUserInfo f → Agrees u ((k.data d).merge m (some f)))
    (hu : u.email = a'.email) : accountOf b =
      Function.update (accountOf s.store) user.uid (some ⟨a'.email, a'.password, u⟩) := by
  -- the document is the one that the device agrees with
  obtain ⟨a₀, ha₀, hemail⟩ := (h.inStep c).known user huser
  obtain rfl := Option.some.inj (ha₀.symm.trans ha)
  obtain ⟨id₀, f, hf, he, hf'⟩ := (h.inStep c).agrees user huser hshown
  obtain ⟨id₁, -, -, honly⟩ := h.oneToOne.own ha
  obtain rfl := (honly id).mp hid
  obtain rfl : id₀ = id := (honly id₀).mp (by rw [Backend.field, hf, hemail]; exact he)
  have hdoc : ∀ id, b.doc? .userInfo id =
      if id = id₀ then some ((k.data d).merge m (some f)) else s.store.doc? .userInfo id := by
    intro id
    rw [Backend.doc?, huserInfo, Collection.get?_upsert]
    split
    · rw [← hf]
      rfl
    · rfl
  have hnew := hagrees f hf'
  refine h.accountOf_put h' ⟨fun uid' hne => ?_, fun id' hne => ?_,
    fun uid' a' => h.oneToOne.own_document ha hid⟩ ?_ ?_ ?_ hnew
  · rw [haccounts, if_neg hne]
  · rw [hdoc, if_neg hne]
  · rw [haccounts, if_pos rfl]
  · rw [hdoc, if_pos rfl]
  · rw [← hu]
    exact hnew.email

theorem updateEmail_responds (h : Consistent s) (h' : Consistent s')
    (hmay : ∀ r, may r false → authOnly r false) (live : (s.locals c).crashed = false)
    (hshown : (s.locals c).mapShown = true) (huser : (s.locals c).currentUser = some user)
    (hc : Completes (app P) may
      (running s.store s.locals c (EditAccountVC.updateClicked vc .email (s.locals c))) ls s') :
    h.directory.Responds (∃ r, may r false) c (inputOf P (s.locals c) (.updateClicked vc .email))
      h'.directory := by
  obtain ⟨a, ha, hemail, hread⟩ := h.shown huser hshown
  obtain ⟨b', d', rfl, ⟨rfl, hview, hrefused⟩ | ⟨user', a', haccepted, hview, w, hback⟩⟩ :=
    updateEmail_settles live (oneToOne_iff.mp h.oneToOne).right hc
  · rw [h.still_directory h' rfl rfl rfl (congrArg UserView.currentUser hview), inputOf]
    split
    · next hvalid =>
      refine .refused ?_
      rcases hrefused user huser (by rw [ha]; rfl) hvalid with hfalse | htaken
      · exact Or.inl ⟨_, hfalse⟩
      · refine Or.inr (fun D' heffect => ?_)
        obtain ⟨i, A, hsession, hA, hfree⟩ := heffect.change_inv
        obtain ⟨uid, a', ha', hne, htaken⟩ := exists_of_emailTaken htaken
        obtain ⟨A', hA', hA'email, -⟩ := h.read ha'
        obtain rfl := hfree uid A' _ hA' rfl (hA'email.trans htaken)
        exact hne (hsession.symm.trans (sessionOf_of_user huser))
    · rfl
  · obtain rfl := Option.some.inj (huser.symm.trans haccepted.signedIn)
    obtain rfl := Option.some.inj (ha.symm.trans haccepted.account)
    obtain ⟨id, m, hid, rfl⟩ := found_of_writesBack h.oneToOne ha hemail (hmay _) (fun _ => hmay _) hback
    have haccounts := fun uid => s.store.accounts.get?_upsert user.uid
      (fun _ => ⟨(s.locals c).text vc .desiredTextField, a.password⟩) uid
    rw [inputOf, if_pos haccepted.valid]
    refine .taken (.of_put (i := user.uid) (sessionOf_of_user huser) hread ?_ ?_)
    · refine h.accountOf_written (k := .email vc) h'.oneToOne huser hshown ha (by rw [hemail]; exact hid)
        haccounts ?_ (fun f hf => WriteBack.agrees_email hf m) rfl
      exact userInfo_setData (P := P) id _ m
    · refine sessionOf_same rfl ?_
      rw [show d'.currentUser = _ from congrArg UserView.currentUser hview]
      exact (sessionOf_of_user huser).symm

theorem updatePassword_responds (h : Consistent s) (h' : Consistent s')
    (hmay : ∀ r, may r false → authOnly r false) (hshown : (s.locals c).mapShown = true)
    (huser : (s.locals c).currentUser = some user) (hc : Completes (app P) may
      (running s.store s.locals c (EditAccountVC.updateClicked vc .password (s.locals c))) ls s') :
    h.directory.Responds (∃ r, may r false) c (inputOf P (s.locals c) (.updateClicked vc .password))
      h'.directory := by
  obtain ⟨a, ha, hemail, hread⟩ := h.shown huser hshown
  obtain ⟨b', d', rfl, hview, ⟨rfl, hrefused⟩ | ⟨user', a', haccepted, w, hback⟩⟩ :=
    updatePassword_settles (oneToOne_iff.mp h.oneToOne).right hc
  · rw [h.still_directory h' rfl rfl rfl (congrArg UserView.currentUser hview), inputOf]
    split
    · next hvalid => exact .refused (Or.inl ⟨_, hrefused user huser (by rw [ha]; rfl) hvalid⟩)
    · rfl
  · obtain rfl := Option.some.inj (huser.symm.trans haccepted.signedIn)
    obtain rfl := Option.some.inj (ha.symm.trans haccepted.account)
    obtain ⟨id, m, hid, rfl⟩ := found_of_writesBack h.oneToOne ha hemail (hmay _) (fun _ => hmay _) hback
    have haccounts := fun uid => s.store.accounts.get?_upsert user.uid
      (fun _ => ⟨a.email, (s.locals c).text vc .desiredTextField⟩) uid
    rw [inputOf, if_pos haccepted.valid]
    refine .taken (.of_put (i := user.uid) (sessionOf_of_user huser) hread ?_ ?_)
    · exact h.accountOf_written (k := .password vc) h'.oneToOne huser hshown ha
        (by rw [hemail]; exact hid) haccounts (userInfo_setData (P := P) id _ m)
        (fun f hf => WriteBack.agrees (k := .password vc) hf trivial (fun h => by cases h) m)
        (((h.inStep c).email huser hshown).trans hemail.symm)
    · refine sessionOf_same rfl ?_
      rw [show d'.currentUser = _ from congrArg UserView.currentUser hview]
      rfl

theorem profileEdited_effect (h : Consistent s) (h' : Consistent s')
    (huser : (s.locals c).currentUser = some user) (hshown : (s.locals c).mapShown = true)
    (hfits : k.Fits (s.locals c)) (hemail : k.field ≠ .email)
    (hlocals : s'.locals = Function.update s.locals c d')
    (hcurrent : d'.currentUser = (s.locals c).currentUser)
    (haccounts : s'.store.accounts = s.store.accounts) {m : ℤ}
    (hid : s.store.field .userInfo id .email = some (.string user.email))
    (huserInfo : s'.store.firestore .userInfo =
      (s.store.firestore .userInfo).upsert id ((k.data (s.locals c)).merge m)) :
    h.directory.Effect c (.change (profileEdited k (s.locals c))) h'.directory := by
  obtain ⟨a, ha, hown, hread⟩ := h.shown huser hshown
  have hsame : (k.share (s.locals c) (s.locals c).sharedUserInfo).email = a.email := by
    rw [hown, ← (h.inStep c).email huser hshown]
    cases k with
    | email vc => exact absurd rfl hemail
    | _ => rfl
  refine .of_put (sessionOf_of_user huser) hread ?_ ?_
  · refine h.accountOf_written h'.oneToOne huser hshown ha (by rw [hown]; exact hid) (fun uid => ?_)
      huserInfo (fun f hf => k.agrees hf hfits hemail m) hsame
    rw [haccounts]
    split
    · next huid => rw [huid, ha]
    · rfl
  · exact sessionOf_same hlocals (by rw [hcurrent]; rfl)

theorem writeBack_responds (h : Consistent s) (h' : Consistent s')
    (hmay : ∀ r, may r false → authOnly r false)
    (huser : (s.locals c).currentUser = some user) (hshown : (s.locals c).mapShown = true)
    (hfits : k.Fits (s.locals c)) (hemail : k.field ≠ .email)
    (hquery : ¬ authOnly (k.query user.email) false)
    (hstore : ∀ id, ¬ authOnly (k.store id (s.locals c)) false) (hc : Completes (app P) may
      (running s.store s.locals c (s.locals c, [k.query user.email])) ls s') :
    h.directory.Responds (∃ r, may r false) c (some (.change (profileEdited k (s.locals c)))) h'.directory := by
  obtain ⟨b', d', rfl, hcurrent, -, hback⟩ := writeBack_settles (oneToOne_iff.mp h.oneToOne).right hc
  obtain ⟨a, ha, hown⟩ := (h.inStep c).known user huser
  generalize d'.sharedUserInfo = w at hback
  cases hback with
  | written id m found asked stored =>
    exact .taken (h.profileEdited_effect h' huser hshown hfits hemail rfl hcurrent rfl found
      (userInfo_setData (P := P) id _ m))
  | left missed =>
    rcases missed with hfalse | hnone | ⟨id, -, hfalse⟩
    · exact absurd (hmay _ hfalse) hquery
    · obtain ⟨id, -, -, honly⟩ := h.oneToOne.own ha
      exact absurd ((honly id).mpr rfl) (hown ▸ hnone id)
    · exact absurd (hmay _ hfalse) (hstore id)

theorem edits_responds (h : Consistent s) (h' : Consistent s')
    (huser : (s.locals c).currentUser = some user) (hshown : (s.locals c).mapShown = true)
    (hfits : k.Fits (s.locals c)) (hemail : k.field ≠ .email)
    (hlocals : s'.locals = Function.update s.locals c d')
    (hedits : Edits k user.email (s.locals c) s.store d' s'.store) :
    h.directory.Responds (∃ r, may r false) c (some (.attempt (profileEdited k (s.locals c))))
      h'.directory := by
  rcases hedits.outcome with ⟨huserInfo, -⟩ | ⟨id, m, hid, huserInfo, -⟩
  · rw [h.still_directory h' hlocals hedits.accounts huserInfo hedits.currentUser]
    exact .taken .idle
  · exact .taken (.attempted (h.profileEdited_effect h' huser hshown hfits hemail hlocals hedits.currentUser
      hedits.accounts hid huserInfo))

theorem deleteAccount_responds (h : Consistent s) (h' : Consistent s') (halone : Alone s)
    (hmay : ∀ r, may r false → authOnly r false) (live : (s.locals c).crashed = false)
    (huser : (s.locals c).currentUser = some user) (hc : Completes (app P) may
      (running s.store s.locals c (SettingsVC.deleteAccountClicked (s.locals c))) ls s') :
    h.directory.Responds (∃ r, may r false) c (inputOf P (s.locals c) .deleteAccountClicked)
      h'.directory := by
  obtain ⟨d', hlocals, hdocument, haccount⟩ :=
    deleteAccount_settles live (oneToOne_iff.mp h.oneToOne).right huser hc
  obtain ⟨a, ha, hown⟩ := (h.inStep c).known user huser
  obtain ⟨id, -, -, honly⟩ := h.oneToOne.own ha
  generalize hF : s'.store.firestore = F at hdocument
  generalize hA : s'.store.accounts = A at haccount
  generalize hv : d'.userView = w at haccount
  cases hdocument with
  | left missed =>
    rcases missed with hfalse | hnone | ⟨_, -, hfalse⟩
    · exact (hmay _ hfalse).elim
    · exact absurd ((honly id).mpr rfl) (hown ▸ hnone id)
    · exact (hmay _ hfalse).elim
  | removed id' _ hfound _ =>
    obtain rfl := (honly id').mp (by rw [hown]; exact hfound)
    cases haccount with
    | left hrefused => exact (hmay _ (hrefused (by rw [ha]; rfl))).elim
    | removed _ _ =>
      have hdoc : ∀ id'', s'.store.doc? .userInfo id'' =
          ((s.store.firestore .userInfo).delete id').get? id'' := by
        intro id''
        rw [Backend.doc?, hF, withoutDocument, Backend.setCollection_firestore, Function.update_self]
      have hconcerns : Concerns user.uid id' s.store s'.store := by
        refine ⟨fun uid' hne => ?_, fun id'' hne => ?_,
          fun uid' a' => h.oneToOne.own_document ha ((honly id').mpr rfl)⟩
        · rw [hA, Collection.get?_delete, if_neg hne]
        · rw [hdoc, Collection.get?_delete, if_neg hne]
          rfl
      refine .taken (.of_remove (sessionOf_of_user huser) (fun c' hne hc' => ?_) ?_ ?_)
      · obtain ⟨user', huser', huid⟩ := Option.map_eq_some_iff.mp hc'
        exact hne (halone c' c user' user huser' huser huid)
      · funext uid'
        by_cases hne : uid' = user.uid
        · rw [hne, Function.update_self]
          refine accountOf_of_vacant ?_
          rw [hA, Collection.get?_delete_self]
        · rw [Function.update_of_ne hne]
          exact h.accountOf_other h'.oneToOne hconcerns hne
      · refine (sessionOf_update hlocals).trans ?_
        rw [show d'.currentUser = none from congrArg UserView.currentUser hv]
        rfl

/-! ### Every operation -/

/-- **An operation is one atomic step** of the directory, or none. -/
theorem responds (h : Consistent s) (h' : Consistent s') (halone : Alone s)
    (hmay : ∀ r, may r false → authOnly r false) {e : Event}
    (hallowed : allowed s.store (s.locals c) e = true) (live : (s.locals c).crashed = false)
    (hc : Completes (app P) may (running s.store s.locals c (start e (s.locals c))) ls s') :
    h.directory.Responds (∃ r, may r false) c (inputOf P (s.locals c) e) h'.directory := by
  have hkeyed := (oneToOne_iff.mp h.oneToOne).right
  -- who is signed in at the map
  have hatMap : ((s.locals c).currentUser.isSome && (s.locals c).mapShown) = true →
      ∃ user, (s.locals c).currentUser = some user ∧ (s.locals c).mapShown = true := by
    intro hand
    obtain ⟨hsome, hshown⟩ := Bool.and_eq_true_iff.mp hand
    obtain ⟨user, huser⟩ := Option.isSome_iff_exists.mp hsome
    exact ⟨user, huser, hshown⟩
  cases e with
  | viewDidLoad | reloadMapClicked | didUpdateLocations | userLocationChanged | viewFor | editText |
      mapLongPressed =>
    obtain ⟨d', hlocals, hview, haccounts, huserInfo⟩ := displays_settles live (by exact hallowed) hc
    exact h.still_directory h' hlocals haccounts huserInfo (congrArg UserView.currentUser hview)
  | signUpClicked vc => exact h.signUp_responds h' hmay hc
  | logInClicked vc => exact h.logIn_responds h' hc
  | viewWillAppear =>
    obtain ⟨user, huser⟩ := Option.isSome_iff_exists.mp hallowed
    obtain ⟨d', rfl, hcurrent, -⟩ := viewWillAppear_settles live huser hc
    exact h.still_directory h' rfl rfl rfl (hcurrent.trans huser.symm)
  | logOutClicked signOut => exact h.logOut_responds h' hc
  | updateClicked vc selectedEditID =>
    obtain ⟨user, huser, hshown⟩ := hatMap hallowed
    cases selectedEditID with
    | email => exact h.updateEmail_responds h' hmay live hshown huser hc
    | password => exact h.updatePassword_responds h' hmay hshown huser hc
    | username =>
      rw [start, EditAccountVC.updateClicked, EditAccountVC.withUser, huser] at hc
      exact h.writeBack_responds (k := .username vc) h' hmay huser hshown trivial
        (fun h => by cases h) not_false (fun _ => not_false) hc
    | unset =>
      obtain rfl := hc.done
      exact h.still_directory h' rfl rfl rfl rfl
  | updateMapRadiusClicked vc =>
    obtain ⟨hand, hfinite⟩ := Bool.and_eq_true_iff.mp hallowed
    obtain ⟨user, huser, hshown⟩ := hatMap hand
    rw [start, SettingsVC.updateMapRadiusClicked, EditAccountVC.withUser, huser] at hc
    refine h.writeBack_responds (k := .radius vc) h' hmay huser hshown ?_ (fun h => by cases h) not_false
      (fun _ => not_false) hc
    rw [finiteRadius] at hfinite
    show ∃ q, (Double.ofText _).getD (.fin 25) = .fin q
    split at hfinite
    · next q hq => exact ⟨q, by rw [hq]; rfl⟩
    · next hnone => exact ⟨25, by rw [hnone]; rfl⟩
    · cases hfinite
  | addPlaylistClicked vc =>
    obtain ⟨user, huser, hshown⟩ := hatMap hallowed
    obtain ⟨d', hlocals, hedits⟩ := addPlaylist_settles live hkeyed hc
    exact h.edits_responds (k := .created _) h' huser hshown rfl (fun h => by cases h) hlocals
      ((h.inStep c).email huser hshown ▸ hedits)
  | storeProfilePic uuid =>
    obtain ⟨user, huser, hshown⟩ := hatMap hallowed
    obtain ⟨d', hlocals, hedits⟩ := storeProfilePic_edits live hkeyed hc
    exact h.edits_responds (k := .picture _) h' huser hshown trivial (fun h => by cases h) hlocals
      ((h.inStep c).email huser hshown ▸ hedits)
  | calloutTapped p =>
    obtain ⟨hand, hone⟩ := Bool.and_eq_true_iff.mp hallowed
    obtain ⟨user, huser, hshown⟩ := hatMap hand
    obtain ⟨d', hlocals, hedits⟩ :=
      calloutTapped_settles live hkeyed (of_decide_eq_true hone) hc
    exact h.edits_responds (k := .found) h' huser hshown trivial (fun h => by cases h) hlocals
      ((h.inStep c).email huser hshown ▸ hedits)
  | deleteAccountClicked =>
    obtain ⟨user, huser, -⟩ := hatMap hallowed
    exact h.deleteAccount_responds h' halone hmay live huser hc

/-- After an operation all is in step again, and the directory has made its step. -/
theorem operation_responds (h : Consistent s) (halone : Alone s)
    (hmay : ∀ r, may r false → authOnly r false) {e : Event}
    (hallowed : allowed s.store (s.locals c) e = true) (live : (s.locals c).crashed = false)
    (hc : Completes (app P) may (running s.store s.locals c (start e (s.locals c))) ls s') :
    ∃ h' : Consistent s',
      h.directory.Responds (∃ r, may r false) c (inputOf P (s.locals c) e) h'.directory := by
  have hc' : Completes (app P) authOnly
      (running s.store s.locals c (start e (s.locals c))) ls s' := by
    refine hc.mono (fun r x hx => ?_)
    cases x with
    | true => cases r <;> trivial
    | false => exact hmay r hx
  exact ⟨h.operation halone hallowed live hc', h.responds _ halone hmay hallowed live hc⟩

end Consistent

end SpotiFriend

import SpotiFriend.Sequential.WriteBack

/-!
# Operations on accounts

What a sign-up, a log-in, an appearance of the map and a change of email or password
leave when their calls are worked off, for every outcome of the calls that `may` allows.
Each has its conditions in a structure: `SignUpAccepted` and so on say that Auth takes the
request.  What comes after that is a call or a write-back.
-/

namespace SpotiFriend

open Async SpotiFriend.Action Store

structure UserView where
  currentUser : Option User
  mapShown : Bool
  sharedUserInfo : UserSingleton

def Device.userView (d : Device) : UserView := ⟨d.currentUser, d.mapShown, d.sharedUserInfo⟩

variable {P : Platform} {may : Request → Bool → Prop} {b b' : Backend} {l : ℕ → Device} {c : ℕ}
  {d : Device} {vc : VC} {ls : List Label} {s' : State}

/-! ### Signing up -/

/-- Auth makes an account, or it refuses and leaves all as it is. -/
theorem called_createUser {email password : String}
    {reply : Except String (Request.createUser vc email password).Answer}
    (h : Called (app P) may (.createUser vc email password) b reply b') :
    (may (.createUser vc email password) true ∧ b.emailTaken none email = false ∧
      reply = .ok ⟨b.accounts.next, email⟩ ∧
      b' = b.setAccounts (b.accounts.add ⟨email, password⟩)) ∨
    (∃ e, reply = .error e) ∧ b' = b ∧ (may (.createUser vc email password) false ∨
      b.emailTaken none email = true) := by
  cases h with
  | done m hmay =>
    cases htaken : b.emailTaken none email with
    | false =>
      refine Or.inl ⟨hmay, rfl, ?_, ?_⟩ <;> simp [Operation.exec, htaken]
    | true =>
      refine Or.inr ⟨⟨Operation.emailAlreadyInUse, ?_⟩, ?_, Or.inr rfl⟩ <;>
        simp [Operation.exec, htaken]
  | failed e hmay => exact Or.inr ⟨⟨e, rfl⟩, rfl, Or.inl hmay⟩

/-- The fields are filled in, and Auth makes the account. -/
structure SignUpAccepted (may : Request → Bool → Prop) (b : Backend) (d : Device) (vc : VC) :
    Prop where
  filled : d.text vc .usernameTextField ≠ "" ∧ d.text vc .emailTextField ≠ "" ∧
    d.text vc .passwordTextField ≠ ""
  called : may (.createUser vc (d.text vc .emailTextField) (d.text vc .passwordTextField)) true
  free : b.emailTaken none (d.text vc .emailTextField) = false

def newUserInfo (d : Device) (vc : VC) : Request :=
  .addUserInfo (d.text vc .usernameTextField) (d.text vc .emailTextField)
    (d.text vc .passwordTextField)

def withAccount (b : Backend) (d : Device) (vc : VC) : Backend :=
  b.setAccounts (b.accounts.add ⟨d.text vc .emailTextField, d.text vc .passwordTextField⟩)

section

variable (h : SignUpAccepted may b d vc) (h₀ : OneToOne b)

include h h₀

theorem SignUpAccepted.oneToOne (m : ℤ) :
    OneToOne ((newUserInfo d vc).operation.exec P m (withAccount b d vc)).1 := by
  have hpair : documentLogin b (b.firestore .userInfo).next = accountLogin b b.accounts.next :=
    documentLogin_vacant.trans accountLogin_vacant.symm
  have hdocument := documentLogin_add (P := P) (withAccount b d vc) (Request.userDict
    (d.text vc .usernameTextField) (d.text vc .emailTextField) (d.text vc .passwordTextField)) m
  rw [show OneToOne ((newUserInfo d vc).operation.exec P m (withAccount b d vc)).1 ↔ _ from
    oneToOne_own_iff h₀ hpair (freshFor_of_emailTaken_none h.free _) (accountLogin_add b _) hdocument]
  simp [Request.userDict, Entry.resolve, Credentials.login]

theorem SignUpAccepted.not_oneToOne : ¬ OneToOne (withAccount b d vc) := by
  intro hbad
  have hpair : documentLogin b (b.firestore .userInfo).next = accountLogin b b.accounts.next :=
    documentLogin_vacant.trans accountLogin_vacant.symm
  have hdocument : documentLogin (withAccount b d vc) = Function.update (documentLogin b)
      (b.firestore .userInfo).next none := by
    rw [← documentLogin_vacant (b := b), Function.update_eq_self]
    rfl
  cases (oneToOne_own_iff h₀ hpair (freshFor_of_emailTaken_none h.free _) (accountLogin_add b _)
    hdocument).mp hbad

end

/-- **A sign-up** is refused and leaves all as it is, or it makes the account, and then the
document unless the call fails. -/
theorem signUp_settles
    (h : Completes (app P) may (running b l c (SignUpVC.signUpClicked vc d)) ls s') :
    ∃ b' d', s' = running b' l c (d', []) ∧ (
      (b' = b ∧ d'.userView = d.userView ∧ ((d.text vc .usernameTextField ≠ "" ∧
          d.text vc .emailTextField ≠ "" ∧ d.text vc .passwordTextField ≠ "") →
        may (.createUser vc (d.text vc .emailTextField) (d.text vc .passwordTextField)) false ∨
        b.emailTaken none (d.text vc .emailTextField) = true)) ∨
      SignUpAccepted may b d vc ∧
        d'.userView = ⟨some ⟨b.accounts.next, d.text vc .emailTextField⟩, d.mapShown,
          d.sharedUserInfo⟩ ∧
        ((∃ m, may (newUserInfo d vc) true ∧
            b' = ((newUserInfo d vc).operation.exec P m (withAccount b d vc)).1) ∨
          may (newUserInfo d vc) false ∧ b' = withAccount b d vc)) := by
  rw [SignUpVC.signUpClicked] at h
  split at h
  · next hfilled =>
    obtain ⟨-, reply, b₁, m, ls₁, hcall, h₁⟩ := h.call
    rcases called_createUser hcall with ⟨hmay, hfree, rfl, rfl⟩ | ⟨⟨e, rfl⟩, rfl, hrefused⟩
    · obtain ⟨-, reply, b₂, m₂, ls₂, hstored, h₂⟩ := h₁.call
      cases hstored with
      | done m' hmay' =>
        obtain rfl := h₂.done
        exact ⟨_, _, rfl, Or.inr ⟨⟨hfilled, hmay, hfree⟩, rfl, Or.inl ⟨m', hmay', rfl⟩⟩⟩
      | failed e hmay' =>
        obtain rfl := h₂.done
        exact ⟨_, _, rfl, Or.inr ⟨⟨hfilled, hmay, hfree⟩, rfl, Or.inr ⟨hmay', rfl⟩⟩⟩
    · obtain rfl := h₁.done
      exact ⟨_, _, rfl, Or.inl ⟨rfl, rfl, fun _ => hrefused⟩⟩
  · next hempty =>
    obtain rfl := h.done
    exact ⟨_, _, rfl, Or.inl ⟨rfl, rfl, fun hfilled => absurd hfilled hempty⟩⟩

/-! ### Logging in -/

/-- **A log-in** changes nothing but who is signed in, and that only for an account with the
email that the device then has for it. -/
theorem logIn_settles (h : Completes (app P) may (running b l c (LogInVC.logInClicked vc d)) ls s') :
    ∃ d', s' = running b l c (d', []) ∧ (d'.userView = d.userView ∨
      ∃ uid a, b.accounts.get? uid = some a ∧
        d'.userView = ⟨some ⟨uid, a.email⟩, d.mapShown, d.sharedUserInfo⟩) := by
  rw [LogInVC.logInClicked] at h
  split at h
  · obtain ⟨-, reply, b₁, m, ls₁, hcall, h₁⟩ := h.call
    cases hcall with
    | done m' hmay =>
      simp only [Operation.exec] at h₁
      cases hfound : b.signInWith (d.text vc .emailTextField) (d.text vc .passwordTextField) with
      | some uid =>
        rw [hfound] at h₁
        obtain rfl := h₁.done
        obtain ⟨a, ha, rfl⟩ := Option.map_eq_some_iff.mp hfound
        have hlogin : a.data = ⟨d.text vc .emailTextField, d.text vc .passwordTextField⟩ := by
          simpa using List.find?_some ha
        have hget := Collection.mem_docs.mp (List.mem_of_find?_eq_some ha)
        refine ⟨_, rfl, Or.inr ⟨a.id, a.data, hget, ?_⟩⟩
        rw [hlogin]
        rfl
      | none =>
        rw [hfound] at h₁
        obtain rfl := h₁.done
        exact ⟨_, rfl, Or.inl rfl⟩
    | failed e hmay =>
      obtain rfl := h₁.done
      exact ⟨_, rfl, Or.inl rfl⟩
  · obtain rfl := h.done
    exact ⟨_, rfl, Or.inl rfl⟩

/-! ### The map appears -/

/-- **An appearance of the map** loads the documents with the user's email. -/
theorem viewWillAppear_settles (live : d.crashed = false) {user : User}
    (huser : d.currentUser = some user)
    (h : Completes (app P) may (running b l c (MapVC.viewWillAppear d)) ls s') :
    ∃ d', s' = running b l c (d', []) ∧ d'.currentUser = some user ∧ d'.mapShown = true ∧
      (may (.getUserInfo user.email) false ∨ d'.sharedUserInfo =
        (b.getDocuments (.userInfo user.email)).foldl (fun u doc => u.load doc.data) .reset) := by
  rw [MapVC.viewWillAppear_apply live, huser] at h
  obtain ⟨-, reply, b₁, m, ls₁, hcall, h₁⟩ := h.call
  cases hcall with
  | done m' hmay =>
    obtain rfl := h₁.done
    exact ⟨_, rfl, rfl, rfl, Or.inr rfl⟩
  | failed e hmay =>
    obtain rfl := h₁.done
    exact ⟨_, rfl, rfl, rfl, Or.inl hmay⟩

/-! ### Changing the email -/

structure EmailAccepted (may : Request → Bool → Prop) (b : Backend) (d : Device) (vc : VC)
    (user : User) (a : Credentials) : Prop where
  signedIn : d.currentUser = some user
  account : b.accounts.get? user.uid = some a
  valid : d.text vc .desiredTextField ≠ "" ∧
    EditAccountVC.isValidEmail (d.text vc .desiredTextField) = true
  called : may (.updateEmail vc user.uid (d.text vc .desiredTextField) user.email) true
  free : b.emailTaken (some user.uid) (d.text vc .desiredTextField) = false

def withCredentials (b : Backend) (uid : ℕ) (a : Credentials) : Backend :=
  b.setAccounts (b.accounts.upsert uid (fun _ => a))

/-- Auth changes the email, or it refuses and leaves all as it is. -/
theorem called_updateEmail {uid : ℕ} {email oldEmail : String}
    {reply : Except String (Request.updateEmail vc uid email oldEmail).Answer}
    (h : Called (app P) may (.updateEmail vc uid email oldEmail) b reply b') :
    (∃ a, b.accounts.get? uid = some a ∧ may (.updateEmail vc uid email oldEmail) true ∧
      b.emailTaken (some uid) email = false ∧ reply = .ok () ∧
      b' = withCredentials b uid ⟨email, a.password⟩) ∨
    (∃ e, reply = .error e) ∧ b' = b ∧ ((b.accounts.get? uid).isSome = true →
      may (.updateEmail vc uid email oldEmail) false ∨ b.emailTaken (some uid) email = true) := by
  cases h with
  | done m hmay =>
    cases haccount : b.accounts.get? uid with
    | none =>
      refine Or.inr ⟨⟨Operation.userNotFound, ?_⟩, ?_, nofun⟩ <;> simp [Operation.exec, haccount]
    | some a =>
      cases htaken : b.emailTaken (some uid) email with
      | false =>
        refine Or.inl ⟨a, rfl, hmay, rfl, ?_, ?_⟩ <;>
          simp [Operation.exec, haccount, htaken, withCredentials]
      | true =>
        refine Or.inr ⟨⟨Operation.emailAlreadyInUse, ?_⟩, ?_, fun _ => Or.inr rfl⟩ <;>
          simp [Operation.exec, haccount, htaken]
  | failed e hmay => exact Or.inr ⟨⟨e, rfl⟩, rfl, fun _ => Or.inl hmay⟩

/-- Nobody is signed in whom Auth knows, or the email is not valid, or Auth refuses. -/
def EmailRefused (may : Request → Bool → Prop) (b : Backend) (d : Device) (vc : VC) : Prop :=
  ∀ user, d.currentUser = some user → (b.accounts.get? user.uid).isSome = true →
    (d.text vc .desiredTextField ≠ "" ∧
      EditAccountVC.isValidEmail (d.text vc .desiredTextField) = true) →
    may (.updateEmail vc user.uid (d.text vc .desiredTextField) user.email) false ∨
      b.emailTaken (some user.uid) (d.text vc .desiredTextField) = true

/-- **A change of the email** is refused and leaves all as it is, or Auth has the new email,
and then the document of the old email gets it by a write-back. -/
theorem updateEmail_settles (live : d.crashed = false) (hkeyed : Keyed Prod.fst (documentLogin b))
    (h : Completes (app P) may (running b l c (EditAccountVC.updateClicked vc .email d)) ls s') :
    ∃ b' d', s' = running b' l c (d', []) ∧ (
      (b' = b ∧ d'.userView = d.userView ∧ EmailRefused may b d vc) ∨
      ∃ user a, EmailAccepted may b d vc user a ∧
        d'.userView = ⟨some ⟨user.uid, d.text vc .desiredTextField⟩, d.mapShown,
          { d.sharedUserInfo with email := d.text vc .desiredTextField }⟩ ∧
        ∃ u, WritesBack P may (.email vc) user.email
          { d with
            currentUser := some ⟨user.uid, d.text vc .desiredTextField⟩
            sharedUserInfo := { d.sharedUserInfo with email := d.text vc .desiredTextField } }
          (withCredentials b user.uid ⟨d.text vc .desiredTextField, a.password⟩) b' u) := by
  simp only [EditAccountVC.updateClicked, EditAccountVC.withUser] at h
  split at h
  · next user huser =>
    split at h
    · next hvalid =>
      obtain ⟨-, reply, b₁, m, ls₁, hcall, h₁⟩ := h.call
      rcases called_updateEmail hcall with ⟨a, ha, hmay, hfree, rfl, rfl⟩ | ⟨⟨e, rfl⟩, rfl, hrefused⟩
      · have hreply : (app P).resume (.updateEmail vc user.uid (d.text vc .desiredTextField) user.email)
            m (.ok ()) d =
            ({ d with
              currentUser := some ⟨user.uid, d.text vc .desiredTextField⟩
              sharedUserInfo := { d.sharedUserInfo with email := d.text vc .desiredTextField } },
            [WriteBack.query (.email vc) user.email]) := by
          simp only [resume, handler, authState, huser, Option.map_some,
            EditAccountVC.updateEmailReply, orAlert_ok]
          exact andThen_issue _ live
        rw [hreply] at h₁
        obtain ⟨b', d', rfl, hcurrent, hshown, hback⟩ := writeBack_settles (by exact hkeyed) h₁
        refine ⟨b', d', rfl, Or.inr ⟨user, a, ⟨huser, ha, hvalid, hmay, hfree⟩, ?_, _, hback⟩⟩
        have hshared : d'.sharedUserInfo =
            { d.sharedUserInfo with email := d.text vc .desiredTextField } := by
          generalize d'.sharedUserInfo = u at hback
          cases hback <;> rfl
        rw [Device.userView, hcurrent, hshown, hshared]
      · obtain rfl := h₁.done
        refine ⟨_, _, rfl, Or.inl ⟨rfl, rfl, fun user' huser' hsome _ => ?_⟩⟩
        rw [huser] at huser'
        obtain rfl := Option.some.inj huser'
        exact hrefused hsome
    · next hinvalid =>
      obtain rfl := h.done
      exact ⟨_, _, rfl, Or.inl ⟨rfl, rfl, fun _ _ _ hvalid => absurd hvalid hinvalid⟩⟩
  · next hnone =>
    obtain rfl := h.done
    refine ⟨_, _, rfl, Or.inl ⟨rfl, rfl, fun user huser => ?_⟩⟩
    rw [hnone] at huser
    cases huser

/-! ### Changing the password -/

structure PasswordAccepted (may : Request → Bool → Prop) (b : Backend) (d : Device) (vc : VC)
    (user : User) (a : Credentials) : Prop where
  signedIn : d.currentUser = some user
  account : b.accounts.get? user.uid = some a
  valid : d.text vc .desiredTextField ≠ ""
  called : may (.updatePassword vc user.uid (d.text vc .desiredTextField)) true

/-- Nobody is signed in whom Auth knows, or the password is empty, or Auth refuses. -/
def PasswordRefused (may : Request → Bool → Prop) (b : Backend) (d : Device) (vc : VC) : Prop :=
  ∀ user, d.currentUser = some user → (b.accounts.get? user.uid).isSome = true →
    d.text vc .desiredTextField ≠ "" →
    may (.updatePassword vc user.uid (d.text vc .desiredTextField)) false

/-- Auth changes the password, or it refuses and leaves all as it is. -/
theorem called_updatePassword {uid : ℕ} {password : String}
    {reply : Except String (Request.updatePassword vc uid password).Answer}
    (h : Called (app P) may (.updatePassword vc uid password) b reply b') :
    (∃ a, b.accounts.get? uid = some a ∧ may (.updatePassword vc uid password) true ∧
      reply = .ok () ∧ b' = withCredentials b uid ⟨a.email, password⟩) ∨
    (∃ e, reply = .error e) ∧ b' = b ∧ ((b.accounts.get? uid).isSome = true →
      may (.updatePassword vc uid password) false) := by
  cases h with
  | done m hmay =>
    cases haccount : b.accounts.get? uid with
    | none =>
      refine Or.inr ⟨⟨Operation.userNotFound, ?_⟩, ?_, nofun⟩ <;> simp [Operation.exec, haccount]
    | some a =>
      refine Or.inl ⟨a, rfl, hmay, ?_, ?_⟩ <;> simp [Operation.exec, haccount, withCredentials]
  | failed e hmay => exact Or.inr ⟨⟨e, rfl⟩, rfl, fun _ => hmay⟩

/-- **A change of the password** is refused and leaves all as it is, or Auth has the new
password, and then the document of the user's email gets it by a write-back. -/
theorem updatePassword_settles (hkeyed : Keyed Prod.fst (documentLogin b))
    (h : Completes (app P) may (running b l c (EditAccountVC.updateClicked vc .password d)) ls s') :
    ∃ b' d', s' = running b' l c (d', []) ∧ d'.userView = d.userView ∧ (
      (b' = b ∧ PasswordRefused may b d vc) ∨
      ∃ user a, PasswordAccepted may b d vc user a ∧
        ∃ u, WritesBack P may (.password vc) user.email d
          (withCredentials b user.uid ⟨a.email, d.text vc .desiredTextField⟩) b' u) := by
  simp only [EditAccountVC.updateClicked] at h
  split at h
  · next hvalid =>
    split at h
    · next user huser =>
      obtain ⟨-, reply, b₁, m, ls₁, hcall, h₁⟩ := h.call
      rcases called_updatePassword hcall with ⟨a, ha, hmay, rfl, rfl⟩ | ⟨⟨e, rfl⟩, rfl, hrefused⟩
      · have hreply : (app P).resume (.updatePassword vc user.uid (d.text vc .desiredTextField))
            m (.ok ()) d = (d, [WriteBack.query (.password vc) user.email]) := by
          simp only [resume, handler, authState, EditAccountVC.updatePasswordReply, orAlert_ok,
            EditAccountVC.withUser, huser]
          rw [← huser]
          rfl
        rw [hreply] at h₁
        obtain ⟨b', d', rfl, hcurrent, hshown, hback⟩ := writeBack_settles (by exact hkeyed) h₁
        refine ⟨b', d', rfl, ?_, Or.inr ⟨user, a, ⟨huser, ha, hvalid, hmay⟩, _, hback⟩⟩
        have hshared : d'.sharedUserInfo = d.sharedUserInfo := by
          generalize d'.sharedUserInfo = u at hback
          cases hback <;> rfl
        rw [Device.userView, hcurrent, hshown, hshared]
        rfl
      · obtain rfl := h₁.done
        refine ⟨_, _, rfl, rfl, Or.inl ⟨rfl, fun user' huser' hsome _ => ?_⟩⟩
        rw [huser] at huser'
        obtain rfl := Option.some.inj huser'
        exact hrefused hsome
    · next hnone =>
      obtain rfl := h.done
      refine ⟨_, _, rfl, rfl, Or.inl ⟨rfl, fun user huser => ?_⟩⟩
      rw [hnone] at huser
      cases huser
  · next hempty =>
    obtain rfl := h.done
    exact ⟨_, _, rfl, rfl, Or.inl ⟨rfl, fun _ _ _ hvalid => absurd hvalid hempty⟩⟩

/-! ### Where nothing goes wrong -/

section

variable {k : WriteBack} {uid : ℕ} {a a' : Credentials} {email : String}

/-- Auth has new credentials and the document of the account has them too. -/
theorem oneToOne_rewritten (h₀ : OneToOne b) (ha : b.accounts.get? uid = some a) {id : ℕ} {m : ℤ}
    (hid : b.field .userInfo id .email = some (.string a.email))
    (hfresh : FreshFor Prod.fst (accountLogin b) uid (some a'.login))
    (hrewrite : k.rewrite d a.login = a'.login) :
    OneToOne ((Operation.setData .userInfo id (k.data d)).exec P m (withCredentials b uid a')).1 := by
  obtain ⟨id', hpair, hlogin, honly⟩ := h₀.own ha
  obtain rfl := (honly id).mp hid
  have hdocument := k.documentLogin_data (P := P) (d := d) (m := m)
    (b := withCredentials b uid a') (v := a.login) hlogin
  rw [show OneToOne ((Operation.setData .userInfo id (k.data d)).exec P m
    (withCredentials b uid a')).1 ↔ _ from
      oneToOne_own_iff h₀ hpair hfresh (accountLogin_upsert b uid a') hdocument]
  exact congrArg some hrewrite.symm

/-- A write-back whose calls cannot fail does not miss the document of an account. -/
theorem found_of_writesBack (h₀ : OneToOne b) (ha : b.accounts.get? uid = some a)
    (hemail : a.email = email) (hquery : ¬ may (k.query email) false)
    (hstore : ∀ id, ¬ may (k.store id d) false) {w : UserSingleton}
    (hback : WritesBack P may k email d (withCredentials b uid a') b' w) :
    ∃ id m, b.field .userInfo id .email = some (.string email) ∧
      b' = ((Operation.setData .userInfo id (k.data d)).exec P m (withCredentials b uid a')).1 := by
  cases hback with
  | written id m found asked stored => exact ⟨id, m, found, rfl⟩
  | left missed =>
    rcases missed with hmay | hnone | ⟨id, -, hmay⟩
    · exact absurd hmay hquery
    · obtain ⟨id, -, -, honly⟩ := h₀.own ha
      exact absurd ((honly id).mpr rfl) (hemail ▸ hnone id)
    · exact absurd hmay (hstore id)

end

end SpotiFriend

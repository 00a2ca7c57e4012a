import SpotiFriend.Store.Matching

/-!
# A directory of accounts

What a service for accounts is for: users sign up with an email and a password that lets them
in again, on whatever device, and each has a profile.  A `Directory` says which accounts there
are and who is signed in where; that no email is used twice, and that who is signed in has an
account, are part of it.

The inputs are atomic: `Effect` says what an input of a client does when it is taken, and
`Step` that it is taken, or refused for a reason or because the service is `unreliable`.

* `Effect.of_put`, `Effect.of_register` and so on: an input told by the directory that it
  leaves;
* `Responds.account_kept`: an input is about the account of the client who makes it.
-/

namespace Store

variable {Client ID Email Password Profile : Type}

structure Account (Email Password Profile : Type) where
  email : Email
  password : Password
  profile : Profile

/-- The accounts, and who is signed in where. -/
@[ext]
structure Directory (Client ID Email Password Profile : Type) where
  account : ID → Option (Account Email Password Profile)
  session : Client → Option ID
  keyed : Keyed Account.email account
  known : ∀ c i, session c = some i → (account i).isSome = true

inductive Input (Email Password Profile : Type)
  | register (A : Account Email Password Profile)
  | logIn (email : Email) (password : Password)
  | logOut
  | change (f : Account Email Password Profile → Account Email Password Profile)
  | attempt (f : Account Email Password Profile → Account Email Password Profile)
  | remove

/-- Where a change leaves a key at one place, it was made with a fresh one. -/
theorem Keyed.freshFor_of_update {ι V K : Type} {key : V → K} {A : ι → Option V} [DecidableEq ι]
    {i : ι} {x : Option V} (h : Keyed key (Function.update A i x)) : FreshFor key A i x := by
  intro j v v' hj hx hkey
  by_contra hne
  refine hne (h j i v v' ?_ ?_ hkey)
  · rwa [Function.update_of_ne hne]
  · rwa [Function.update_self]

namespace Directory

variable (D : Directory Client ID Email Password Profile) (c : Client) (i : ID)
  (A : Account Email Password Profile)

/-! ### What may be done to a directory -/

section

variable [DecidableEq Client]

def enter (hi : (D.account i).isSome = true) : Directory Client ID Email Password Profile where
  account := D.account
  session := Function.update D.session c (some i)
  keyed := D.keyed
  known := by
    intro c' j hj
    by_cases hc : c' = c
    · rw [hc, Function.update_self] at hj
      rwa [← Option.some.inj hj]
    · rw [Function.update_of_ne hc] at hj
      exact D.known c' j hj

def leave : Directory Client ID Email Password Profile where
  account := D.account
  session := Function.update D.session c none
  keyed := D.keyed
  known := by
    intro c' j hj
    by_cases hc : c' = c
    · rw [hc, Function.update_self] at hj
      cases hj
    · rw [Function.update_of_ne hc] at hj
      exact D.known c' j hj

end

section

variable [DecidableEq ID]

def put (hA : FreshFor Account.email D.account i (some A)) :
    Directory Client ID Email Password Profile where
  account := Function.update D.account i (some A)
  session := D.session
  keyed := D.keyed.update hA
  known := by
    intro c' j hj
    by_cases hi : j = i
    · rw [hi, Function.update_self]
      rfl
    · rw [Function.update_of_ne hi]
      exact D.known c' j hj

/-- An account is gone, and nobody is signed in any more who had it. -/
def remove : Directory Client ID Email Password Profile where
  account := Function.update D.account i none
  session := fun c => if D.session c = some i then none else D.session c
  keyed := D.keyed.update freshFor_none
  known := by
    intro c' j hj
    split at hj
    · cases hj
    · next hne =>
      have hij : j ≠ i := by
        rintro rfl
        exact hne hj
      rw [Function.update_of_ne hij]
      exact D.known c' j hj

theorem put_isSome (hA : FreshFor Account.email D.account i (some A)) :
    ((D.put i A hA).account i).isSome = true := by
  show (Function.update D.account i (some A) i).isSome = true
  rw [Function.update_self]
  rfl

end

/-! ### Inputs -/

variable [DecidableEq Client] [DecidableEq ID]

/-- What an input does when it is taken. -/
inductive Effect (D : Directory Client ID Email Password Profile) (c : Client) :
    Input Email Password Profile → Directory Client ID Email Password Profile → Prop
  | registered {i : ID} {A : Account Email Password Profile} (vacant : D.account i = none)
      (free : FreshFor Account.email D.account i (some A)) :
      Effect D c (.register A) ((D.put i A free).enter c i (D.put_isSome i A free))
  | loggedIn {i : ID} {A : Account Email Password Profile} (ha : D.account i = some A) :
      Effect D c (.logIn A.email A.password) (D.enter c i (by rw [ha]; rfl))
  | loggedOut : Effect D c .logOut (D.leave c)
  | changed {i : ID} {A : Account Email Password Profile}
      {f : Account Email Password Profile → Account Email Password Profile}
      (hc : D.session c = some i) (ha : D.account i = some A)
      (free : FreshFor Account.email D.account i (some (f A))) :
      Effect D c (.change f) (D.put i (f A) free)
  | attempted {f : Account Email Password Profile → Account Email Password Profile}
      {D' : Directory Client ID Email Password Profile} (h : Effect D c (.change f) D') :
      Effect D c (.attempt f) D'
  | idle {f : Account Email Password Profile → Account Email Password Profile} :
      Effect D c (.attempt f) D
  | removed {i : ID} (hc : D.session c = some i) : Effect D c .remove (D.remove i)

/-- An input is taken, or it is refused: a reliable service refuses only what it cannot take. -/
inductive Step (unreliable : Prop) (D : Directory Client ID Email Password Profile) :
    Client × Input Email Password Profile → Directory Client ID Email Password Profile → Prop
  | taken {c : Client} {x : Input Email Password Profile}
      {D' : Directory Client ID Email Password Profile} (h : D.Effect c x D') :
      Step unreliable D (c, x) D'
  | refused {c : Client} {x : Input Email Password Profile}
      (h : unreliable ∨ ∀ D', ¬ D.Effect c x D') : Step unreliable D (c, x) D

variable {D c i A} {D' : Directory Client ID Email Password Profile}
  {f : Account Email Password Profile → Account Email Password Profile}
  {x : Input Email Password Profile} {unreliable : Prop}

namespace Effect

theorem of_register (vacant : D.account i = none)
    (haccount : D'.account = Function.update D.account i (some A))
    (hsession : D'.session = Function.update D.session c (some i)) :
    D.Effect c (.register A) D' := by
  have free := Keyed.freshFor_of_update (haccount ▸ D'.keyed)
  obtain rfl : D' = (D.put i A free).enter c i (D.put_isSome i A free) :=
    Directory.ext haccount hsession
  exact .registered vacant free

theorem of_enter (ha : D.account i = some A) (haccount : D'.account = D.account)
    (hsession : D'.session = Function.update D.session c (some i)) :
    D.Effect c (.logIn A.email A.password) D' := by
  obtain rfl : D' = D.enter c i (by rw [ha]; rfl) := Directory.ext haccount hsession
  exact .loggedIn ha

theorem of_leave (haccount : D'.account = D.account)
    (hsession : D'.session = Function.update D.session c none) : D.Effect c .logOut D' := by
  obtain rfl : D' = D.leave c := Directory.ext haccount hsession
  exact .loggedOut

theorem of_put (hc : D.session c = some i) (ha : D.account i = some A)
    (haccount : D'.account = Function.update D.account i (some (f A)))
    (hsession : D'.session = D.session) : D.Effect c (.change f) D' := by
  have free := Keyed.freshFor_of_update (haccount ▸ D'.keyed)
  obtain rfl : D' = D.put i (f A) free := Directory.ext haccount hsession
  exact .changed hc ha free

/-- Where the account was on one device only, that one is signed out. -/
theorem of_remove (hc : D.session c = some i) (hothers : ∀ c', c' ≠ c → D.session c' ≠ some i)
    (haccount : D'.account = Function.update D.account i none)
    (hsession : D'.session = Function.update D.session c none) : D.Effect c .remove D' := by
  have hremoved : D'.session = (D.remove i).session := by
    funext c'
    rw [hsession]
    show _ = if D.session c' = some i then none else D.session c'
    by_cases hc' : c' = c
    · rw [hc', Function.update_self, if_pos hc]
    · rw [Function.update_of_ne hc', if_neg (hothers c' hc')]
  obtain rfl : D' = D.remove i := Directory.ext haccount hremoved
  exact .removed hc

theorem register_inv (h : D.Effect c (.register A) D') : ∃ i, D.account i = none ∧
    FreshFor Account.email D.account i (some A) := by
  cases h with
  | registered vacant free => exact ⟨_, vacant, free⟩

theorem logIn_inv {email : Email} {password : Password} (h : D.Effect c (.logIn email password) D') :
    ∃ i A, D.account i = some A ∧ A.email = email ∧ A.password = password := by
  cases h with
  | loggedIn ha => exact ⟨_, _, ha, rfl, rfl⟩

theorem change_inv (h : D.Effect c (.change f) D') : ∃ i A, D.session c = some i ∧
    D.account i = some A ∧ FreshFor Account.email D.account i (some (f A)) := by
  cases h with
  | changed hc ha free => exact ⟨_, _, hc, ha, free⟩

/-- **An input is about the account of the client** who makes it. -/
theorem account_kept (h : D.Effect c x D') (ha : D.account i = some A)
    (hc : D.session c = some i → x = .logOut) : D'.account i = some A := by
  induction h with
  | @registered j B vacant free =>
    have hij : i ≠ j := by
      rintro rfl
      rw [vacant] at ha
      cases ha
    exact (Function.update_of_ne hij ..).trans ha
  | loggedIn => exact ha
  | loggedOut => exact ha
  | @changed j B f hj hb free =>
    have hij : i ≠ j := by
      rintro rfl
      cases hc hj
    exact (Function.update_of_ne hij ..).trans ha
  | attempted h ih =>
    refine ih (fun hi => ?_)
    cases hc hi
  | idle => exact ha
  | @removed j hj =>
    have hij : i ≠ j := by
      rintro rfl
      cases hc hj
    exact (Function.update_of_ne hij ..).trans ha

end Effect

def Responds (unreliable : Prop) (D : Directory Client ID Email Password Profile) (c : Client) :
    Option (Input Email Password Profile) → Directory Client ID Email Password Profile → Prop
  | none, D' => D' = D
  | some x, D' => D.Step unreliable (c, x) D'

theorem Responds.account_kept {o : Option (Input Email Password Profile)}
    (h : D.Responds unreliable c o D') (ha : D.account i = some A)
    (hc : D.session c = some i → ∀ x, o = some x → x = .logOut) : D'.account i = some A := by
  cases o with
  | none =>
    obtain rfl : D' = D := h
    exact ha
  | some x =>
    cases h with
    | taken h => exact h.account_kept ha (fun hi => hc hi x rfl)
    | refused => exact ha

end Directory

end Store

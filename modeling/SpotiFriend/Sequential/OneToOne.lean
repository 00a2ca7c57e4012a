import SpotiFriend.Spec.Documents
import SpotiFriend.Store.Matching

/-!
# Accounts and their documents

Every Auth account is to have one `userInfo` document, with its email and its password,
and there is to be no other document: `OneToOne`.  An account and a document have two
things in common, the email and the password; with these as records, `OneToOne` says
that the two collections match (`oneToOne_iff`), and what an operation does to them is
a change on one side or on both (`accounts_upsert`, `records_setData` and so on).
-/

namespace SpotiFriend

open Store

/-- **One to one**: no two accounts have the same email, each has exactly one document with
its email, which has its password, and there is no other document. -/
structure OneToOne (b : Backend) : Prop where
  distinct : ∀ uid uid' a a', b.accounts.get? uid = some a → b.accounts.get? uid' = some a' →
    a.email = a'.email → uid = uid'
  document : ∀ uid a, b.accounts.get? uid = some a → ∃ id, Owner b a.email id ∧
    b.field .userInfo id .password = some (.string a.password)
  account : ∀ id f, b.doc? .userInfo id = some f → ∃ uid a, b.accounts.get? uid = some a ∧
    f .email = some (.string a.email)

abbrev Login := Option Value × Option Value

def Credentials.login (a : Credentials) : Login := (some (.string a.email), some (.string a.password))

def accountLogin (b : Backend) (uid : ℕ) : Option Login :=
  (b.accounts.get? uid).map Credentials.login

def documentLogin (b : Backend) (id : ℕ) : Option Login :=
  (b.doc? .userInfo id).map (fun f => (f .email, f .password))

variable {P : Platform} {b b' : Backend} {uid id : ℕ} {a a' : Credentials} {email : String} {m : ℤ}

theorem documentLogin_eq_some {v : Login} : documentLogin b id = some v ↔
    ∃ f, b.doc? .userInfo id = some f ∧ v = (f .email, f .password) := by
  rw [documentLogin, Option.map_eq_some_iff]
  exact exists_congr (fun f => and_congr_right (fun _ => eq_comm))

theorem accountLogin_eq_some {v : Login} : accountLogin b uid = some v ↔
    ∃ a, b.accounts.get? uid = some a ∧ v = a.login := by
  rw [accountLogin, Option.map_eq_some_iff]
  exact exists_congr (fun a => and_congr_right (fun _ => eq_comm))

theorem login_inj {a a' : Credentials} (h : a.login.1 = a'.login.1) : a.email = a'.email :=
  Value.string.inj (Option.some.inj h)

theorem email_field_iff : b.field .userInfo id .email = some (.string email) ↔
    ∃ v, documentLogin b id = some v ∧ v.1 = some (.string email) := by
  rw [Backend.field, Option.bind_eq_some_iff]
  constructor
  · rintro ⟨f, hf, he⟩
    exact ⟨_, documentLogin_eq_some.mpr ⟨f, hf, rfl⟩, he⟩
  · rintro ⟨v, hv, he⟩
    obtain ⟨f, hf, rfl⟩ := documentLogin_eq_some.mp hv
    exact ⟨f, hf, he⟩

/-- **One to one is a matching** of the accounts and the documents, by the email. -/
theorem oneToOne_iff : OneToOne b ↔ Matched Prod.fst (accountLogin b) (documentLogin b) := by
  constructor
  · intro h
    have hleft : Keyed Prod.fst (accountLogin b) := by
      intro uid uid' v v' hv hv' hkey
      obtain ⟨a, ha, rfl⟩ := accountLogin_eq_some.mp hv
      obtain ⟨a', ha', rfl⟩ := accountLogin_eq_some.mp hv'
      exact h.distinct uid uid' a a' ha ha' (login_inj hkey)
    -- every document is the one that its account has
    have hown : ∀ id v, documentLogin b id = some v → ∃ uid a, b.accounts.get? uid = some a ∧
        v = a.login ∧ Owner b a.email id := by
      intro id v hv
      obtain ⟨f, hf, rfl⟩ := documentLogin_eq_some.mp hv
      obtain ⟨uid, a, ha, he⟩ := h.account id f hf
      obtain ⟨id', howner, hpass⟩ := h.document uid a ha
      have hemail : b.field .userInfo id .email = some (.string a.email) := by
        rw [Backend.field, hf]
        exact he
      obtain rfl := (owner_iff.mp howner id).mp hemail
      rw [Backend.field, hf] at hpass
      exact ⟨uid, a, ha, Prod.ext he hpass, howner⟩
    refine ⟨hleft, ?_, fun v => ⟨?_, ?_⟩⟩
    · intro id id' v v' hv hv' hkey
      obtain ⟨uid, a, -, rfl, howner⟩ := hown id v hv
      refine ((owner_iff.mp howner id').mp (email_field_iff.mpr ⟨v', hv', ?_⟩)).symm
      rw [← hkey]
      rfl
    · rintro ⟨uid, hv⟩
      obtain ⟨a, ha, rfl⟩ := accountLogin_eq_some.mp hv
      obtain ⟨id, howner, hpass⟩ := h.document uid a ha
      obtain ⟨v, hv, he⟩ := email_field_iff.mp ((owner_iff.mp howner id).mpr rfl)
      obtain ⟨f, hf, rfl⟩ := documentLogin_eq_some.mp hv
      rw [Backend.field, hf] at hpass
      exact ⟨id, documentLogin_eq_some.mpr ⟨f, hf, Prod.ext he.symm hpass.symm⟩⟩
    · rintro ⟨id, hv⟩
      obtain ⟨uid, a, ha, rfl, -⟩ := hown id v hv
      exact ⟨uid, accountLogin_eq_some.mpr ⟨a, ha, rfl⟩⟩
  · intro h
    refine ⟨?_, ?_, ?_⟩
    · intro uid uid' a a' ha ha' he
      exact h.left uid uid' _ _ (accountLogin_eq_some.mpr ⟨a, ha, rfl⟩)
        (accountLogin_eq_some.mpr ⟨a', ha', rfl⟩) (congrArg (fun e => some (Value.string e)) he)
    · intro uid a ha
      obtain ⟨id, hid, honly⟩ := h.partner (accountLogin_eq_some.mpr ⟨a, ha, rfl⟩)
      obtain ⟨f, hf, hv⟩ := documentLogin_eq_some.mp hid
      refine ⟨id, owner_iff.mpr (fun id' => ⟨fun he => ?_, ?_⟩), ?_⟩
      · obtain ⟨v, hv, he⟩ := email_field_iff.mp he
        exact honly id' v hv he
      · rintro rfl
        exact email_field_iff.mpr ⟨_, hid, rfl⟩
      · rw [Backend.field, hf]
        exact (Prod.ext_iff.mp hv).2.symm
    · intro id f hf
      obtain ⟨uid, huid⟩ := (h.same _).mpr ⟨id, documentLogin_eq_some.mpr ⟨f, hf, rfl⟩⟩
      obtain ⟨a, ha, hv⟩ := accountLogin_eq_some.mp huid
      exact ⟨uid, a, ha, (Prod.ext_iff.mp hv).1⟩

/-! ### Changes -/

section

variable (b)

theorem accountLogin_add (a : Credentials) :
    accountLogin (b.setAccounts (b.accounts.add a)) =
      Function.update (accountLogin b) b.accounts.next (some a.login) := by
  funext uid
  rw [accountLogin, Backend.setAccounts_accounts, Collection.get?_add, Function.update_apply]
  split <;> rfl

theorem accountLogin_upsert (uid : ℕ) (a : Credentials) :
    accountLogin (b.setAccounts (b.accounts.upsert uid (fun _ => a))) =
      Function.update (accountLogin b) uid (some a.login) := by
  funext uid'
  rw [accountLogin, Backend.setAccounts_accounts, Collection.get?_upsert, Function.update_apply]
  split <;> rfl

theorem accountLogin_delete (uid : ℕ) :
    accountLogin (b.setAccounts (b.accounts.delete uid)) =
      Function.update (accountLogin b) uid none := by
  funext uid'
  rw [accountLogin, Backend.setAccounts_accounts, Collection.get?_delete, Function.update_apply]
  split <;> rfl

theorem documentLogin_add (data : Dict) (m : ℤ) :
    documentLogin ((Operation.addDocument .userInfo data).exec P m b).1 =
      Function.update (documentLogin b) (b.firestore .userInfo).next
        (some (data.fields m .email, data.fields m .password)) := by
  funext id
  rw [documentLogin, doc?_addDocument, Function.update_apply]
  simp only [true_and]
  split <;> rfl

theorem documentLogin_setData (id : ℕ) (data : Dict) (m : ℤ) :
    documentLogin ((Operation.setData .userInfo id data).exec P m b).1 =
      Function.update (documentLogin b) id
        (some ((data.fields m .email).or (b.field .userInfo id .email),
          (data.fields m .password).or (b.field .userInfo id .password))) := by
  funext id'
  rw [documentLogin, doc?_setData, Function.update_apply]
  simp only [true_and]
  split <;> rfl

theorem documentLogin_delete (id : ℕ) (m : ℤ) :
    documentLogin ((Operation.deleteDocument .userInfo id).exec P m b).1 =
      Function.update (documentLogin b) id none := by
  funext id'
  rw [documentLogin, doc?_deleteDocument, Function.update_apply]
  simp only [true_and]
  split <;> rfl

end

theorem accountLogin_vacant : accountLogin b b.accounts.next = none := by
  rw [accountLogin, b.accounts.vacant _ (Nat.le_refl _)]
  rfl

theorem documentLogin_vacant : documentLogin b (b.firestore .userInfo).next = none := by
  rw [documentLogin, Backend.doc?, (b.firestore .userInfo).vacant _ (Nat.le_refl _)]
  rfl

/-- A write to a document that names neither email nor password changes no record. -/
theorem documentLogin_setData_of_absent {data : Dict} (hid : (documentLogin b id).isSome = true)
    (hemail : data.fields m .email = none) (hpassword : data.fields m .password = none) :
    documentLogin ((Operation.setData .userInfo id data).exec P m b).1 = documentLogin b := by
  obtain ⟨v, hv⟩ := Option.isSome_iff_exists.mp hid
  obtain ⟨f, hf, rfl⟩ := documentLogin_eq_some.mp hv
  rw [documentLogin_setData, hemail, hpassword, Backend.field, Backend.field, hf]
  exact (congrArg _ hv.symm).trans (Function.update_eq_self id _)

theorem OneToOne.frame (h : OneToOne b) (haccounts : accountLogin b' = accountLogin b)
    (hdocuments : documentLogin b' = documentLogin b) : OneToOne b' := by
  rw [oneToOne_iff, haccounts, hdocuments]
  exact oneToOne_iff.mp h

/-- An email that Auth takes for the account `uid` is no other account's. -/
theorem freshFor_of_emailTaken (h : b.emailTaken (some uid) email = false) (password : String) :
    FreshFor Prod.fst (accountLogin b) uid (some (Credentials.login ⟨email, password⟩)) := by
  intro uid' v v' hv hv' hkey
  obtain ⟨a, ha, rfl⟩ := accountLogin_eq_some.mp hv
  obtain rfl := Option.some.inj hv'
  by_contra hne
  have hnone := List.any_eq_false.mp h ⟨uid', a⟩ (Collection.mem_docs.mpr ha)
  have hemail : a.email = email := login_inj hkey
  simp [hne, hemail] at hnone

theorem freshFor_of_emailTaken_none (h : b.emailTaken none email = false) (password : String) :
    FreshFor Prod.fst (accountLogin b) uid (some (Credentials.login ⟨email, password⟩)) := by
  intro uid' v v' hv hv' hkey
  obtain ⟨a, ha, rfl⟩ := accountLogin_eq_some.mp hv
  obtain rfl := Option.some.inj hv'
  have hnone := List.any_eq_false.mp h ⟨uid', a⟩ (Collection.mem_docs.mpr ha)
  have hemail : a.email = email := login_inj hkey
  simp [hemail] at hnone

theorem accountLogin_congr (h : b'.accounts = b.accounts) : accountLogin b' = accountLogin b := by
  funext uid
  rw [accountLogin, h]
  rfl

theorem documentLogin_congr (h : b'.firestore .userInfo = b.firestore .userInfo) :
    documentLogin b' = documentLogin b := by
  funext id
  rw [documentLogin, Backend.doc?, h]
  rfl

/-! ### Partners -/

theorem login_injective (h : a.login = a'.login) : a = a' := by
  obtain ⟨he, hp⟩ := Prod.ext_iff.mp h
  have hemail : a.email = a'.email := Value.string.inj (Option.some.inj he)
  have hpassword : a.password = a'.password := Value.string.inj (Option.some.inj hp)
  cases a
  cases a'
  simp only at hemail hpassword
  rw [hemail, hpassword]

theorem OneToOne.own (h : OneToOne b) (ha : b.accounts.get? uid = some a) :
    ∃ id, documentLogin b id = accountLogin b uid ∧ documentLogin b id = some a.login ∧
      ∀ id', b.field .userInfo id' .email = some (.string a.email) ↔ id' = id := by
  have haccount : accountLogin b uid = some a.login := accountLogin_eq_some.mpr ⟨a, ha, rfl⟩
  obtain ⟨id, hid, honly⟩ := (oneToOne_iff.mp h).partner haccount
  refine ⟨id, hid.trans haccount.symm, hid, fun id' => ⟨fun he => ?_, ?_⟩⟩
  · obtain ⟨v, hv, he⟩ := email_field_iff.mp he
    exact honly id' v hv he
  · rintro rfl
    exact email_field_iff.mpr ⟨_, hid, rfl⟩

theorem OneToOne.known (h : OneToOne b) (he : b.field .userInfo id .email = some (.string email)) :
    ∃ uid a, b.accounts.get? uid = some a ∧ a.email = email ∧
      accountLogin b uid = documentLogin b id := by
  obtain ⟨v, hv, he⟩ := email_field_iff.mp he
  obtain ⟨uid, huid⟩ := ((oneToOne_iff.mp h).same v).mpr ⟨id, hv⟩
  obtain ⟨a, ha, rfl⟩ := accountLogin_eq_some.mp huid
  exact ⟨uid, a, ha, Value.string.inj (Option.some.inj he), huid.trans hv.symm⟩

section

variable (h : OneToOne b) {x y : Option Login}

include h

theorem oneToOne_own_iff (hpair : documentLogin b id = accountLogin b uid)
    (hfresh : FreshFor Prod.fst (accountLogin b) uid x)
    (haccount : accountLogin b' = Function.update (accountLogin b) uid x)
    (hdocument : documentLogin b' = Function.update (documentLogin b) id y) :
    OneToOne b' ↔ x = y := by
  rw [oneToOne_iff, haccount, hdocument]
  exact (oneToOne_iff.mp h).update_iff hpair.symm hfresh

theorem oneToOne_account_iff (ha : b.accounts.get? uid = some a)
    (hfresh : FreshFor Prod.fst (accountLogin b) uid x)
    (haccount : accountLogin b' = Function.update (accountLogin b) uid x)
    (hdocument : documentLogin b' = documentLogin b) : OneToOne b' ↔ x = some a.login := by
  obtain ⟨id, hpair, hid, -⟩ := h.own ha
  rw [← hid]
  exact oneToOne_own_iff h hpair hfresh haccount (hdocument.trans (Function.update_eq_self id _).symm)

theorem oneToOne_other_iff (ha : b.accounts.get? uid = some a)
    (he : b.field .userInfo id .email = some (.string email)) (hne : email ≠ a.email)
    (haccount : accountLogin b' = Function.update (accountLogin b) uid x)
    (hdocument : documentLogin b' = Function.update (documentLogin b) id y) :
    OneToOne b' ↔ x = some a.login ∧ y = documentLogin b id := by
  obtain ⟨uid', a', ha', rfl, hpair⟩ := h.known he
  have hlogin : accountLogin b uid = some a.login := accountLogin_eq_some.mpr ⟨a, ha, rfl⟩
  have huid : uid' ≠ uid := by
    rintro rfl
    rw [ha] at ha'
    cases ha'
    exact hne rfl
  rw [oneToOne_iff, haccount, hdocument,
    (oneToOne_iff.mp h).update_apart_iff huid hpair hlogin, hlogin]

end

end SpotiFriend

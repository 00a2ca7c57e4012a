import SpotiFriend.Sequential.Removal

/-!
# When a call of an account operation fails

A sign-up, a change of email or password and a deletion of the account each change Auth
and Firestore by calls of their own.  For every outcome `ok` of the calls and every order
of their moves, `oneToOne_iff_atomic` says when accounts and documents are one to one
again at the end: when both services did their part or neither did (`Atomic`).

`deletion_refused` is the case in which Auth refuses a deletion that Firestore carries out.
-/

namespace SpotiFriend

open Async Store

/-- The query finds a document with the email, and the call for it succeeds too. -/
def Reaches (ok : Request → Bool) (b : Backend) (query : Request) (email : String)
    (call : ℕ → Request) : Prop :=
  ok query = true ∧ ∃ id, b.field .userInfo id .email = some (.string email) ∧ ok (call id) = true

inductive AccountOperation : Event → Prop
  | signUp (vc : VC) : AccountOperation (.signUpClicked vc)
  | email (vc : VC) : AccountOperation (.updateClicked vc .email)
  | password (vc : VC) : AccountOperation (.updateClicked vc .password)
  | delete : AccountOperation .deleteAccountClicked

/-- The email in the document changes too, unless it is the one that is there.

Where the device's idea of the user's email is out of date, the write reaches nobody's or
another user's document; then nothing may change at all. -/
def EmailAtomic (ok : Request → Bool) (b : Backend) (desired : String) (vc : VC) (user : User)
    (a : Credentials) : Prop :=
  let reached := Reaches ok b (.emailUserInfo vc user.email) user.email (.storeEmail · desired)
  if user.email = a.email then reached ∨ desired = a.email
  else desired = a.email ∧ (reached → desired = user.email)

def PasswordAtomic (ok : Request → Bool) (b : Backend) (desired : String) (vc : VC) (user : User)
    (a : Credentials) : Prop :=
  let reached := Reaches ok b (.passwordUserInfo vc user.email) user.email
    (.storePassword · desired)
  if user.email = a.email then reached ∨ desired = a.password
  else desired = a.password ∧ (reached → ∀ id,
    b.field .userInfo id .email = some (.string user.email) →
    b.field .userInfo id .password = some (.string desired))

def DeletionAtomic (ok : Request → Bool) (b : Backend) (user : User) : Prop :=
  let deleted := ok (.deleteUser user.uid) = true ∧ (b.accounts.get? user.uid).isSome = true
  let reached := Reaches ok b (.deletedUserInfo user.email) user.email .deleteUserInfo
  if (b.accounts.get? user.uid).any (fun a => a.email = user.email) then deleted ↔ reached
  else ¬ deleted ∧ ¬ reached

/-- Auth and Firestore both do their part, or neither does. -/
def Atomic (ok : Request → Bool) (b : Backend) (d : Device) : Event → Prop
  | .signUpClicked vc => SignUpAccepted (decidedBy ok) b d vc → ok (newUserInfo d vc) = true
  | .updateClicked vc .email => ∀ user a, EmailAccepted (decidedBy ok) b d vc user a →
    EmailAtomic ok b (d.text vc .desiredTextField) vc user a
  | .updateClicked vc .password => ∀ user a, PasswordAccepted (decidedBy ok) b d vc user a →
    PasswordAtomic ok b (d.text vc .desiredTextField) vc user a
  | .deleteAccountClicked => ∀ user, d.currentUser = some user → DeletionAtomic ok b user
  | _ => True

variable {P : Platform} {ok : Request → Bool} {b b' : Backend} {l : ℕ → Device} {c : ℕ}
  {d : Device} {vc : VC} {ls : List Label} {s s₁ s' : State} {user : User} {a a' : Credentials}
  {uid id : ℕ} {email : String}

theorem not_decidedBy {r : Request} (h : decidedBy ok r false) : ¬ decidedBy ok r true :=
  fun h' => Bool.false_ne_true (h.symm.trans h')

/-! ### Signing up -/

theorem signUp_atomic (h₀ : OneToOne b) (h : Completes (app P) (decidedBy ok)
    (running b l c (SignUpVC.signUpClicked vc d)) ls s') :
    OneToOne s'.store ↔ Atomic ok b d (.signUpClicked vc) := by
  obtain ⟨b', d', rfl, ⟨rfl, -, hrefused⟩ | ⟨haccepted, -, hstored⟩⟩ := signUp_settles h
  · refine iff_of_true h₀ (fun haccepted => ?_)
    rcases hrefused haccepted.filled with hmay | htaken
    · exact absurd haccepted.called (not_decidedBy hmay)
    · rw [haccepted.free] at htaken
      cases htaken
  · rcases hstored with ⟨m, hmay, rfl⟩ | ⟨hmay, rfl⟩
    · exact iff_of_true (haccepted.oneToOne (P := P) h₀ m) (fun _ => hmay)
    · exact iff_of_false (haccepted.not_oneToOne h₀)
        (fun hatomic => not_decidedBy hmay (hatomic haccepted))

/-! ### Changing email and password -/

/-- A call that fails on the way, or that has no document to go to, does not reach it. -/
theorem not_reaches (h₀ : Keyed Prod.fst (documentLogin b)) {query : Request} {call : ℕ → Request}
    (missed : decidedBy ok query false ∨
      (∀ id, b.field .userInfo id .email ≠ some (.string email)) ∨
      ∃ id, b.field .userInfo id .email = some (.string email) ∧ decidedBy ok (call id) false) :
    ¬ Reaches ok b query email call := by
  rintro ⟨hasked, id, hid, hcalled⟩
  rcases missed with hmay | hnone | ⟨id', hid', hmay⟩
  · exact not_decidedBy hmay hasked
  · exact hnone id hid
  · obtain ⟨v, hv, he⟩ := email_field_iff.mp hid
    obtain ⟨v', hv', he'⟩ := email_field_iff.mp hid'
    obtain rfl := h₀ id id' v v' hv hv' (he.trans he'.symm)
    exact not_decidedBy hmay hcalled

theorem WritesBack.reaches {k : WriteBack} {u : UserSingleton}
    (h : WritesBack P (decidedBy ok) k email d b b' u) (h₀ : Keyed Prod.fst (documentLogin b)) :
    Reaches ok b (k.query email) email (k.store · d) ∧ (∃ id m,
      b.field .userInfo id .email = some (.string email) ∧
      b' = ((Operation.setData .userInfo id (k.data d)).exec P m b).1) ∨
    ¬ Reaches ok b (k.query email) email (k.store · d) ∧ b' = b := by
  cases h with
  | written id m found asked stored => exact Or.inl ⟨⟨asked, id, found, stored⟩, id, m, found, rfl⟩
  | left missed => exact Or.inr ⟨not_reaches h₀ missed, rfl⟩

section

variable {k : WriteBack} {u : UserSingleton} (h₀ : OneToOne b)
  (ha : b.accounts.get? uid = some a)
  (hfresh : FreshFor Prod.fst (accountLogin b) uid (some a'.login))
  (hback : WritesBack P (decidedBy ok) k email d (withCredentials b uid a') b' u)

include h₀ ha hfresh hback

/-- Auth has new credentials, and the write-back is for the document of the account. -/
theorem writesBack_own (hown : email = a.email) : OneToOne b' ↔
    (Reaches ok b (k.query email) email (k.store · d) ∧ k.rewrite d a.login = a'.login) ∨
      ¬ Reaches ok b (k.query email) email (k.store · d) ∧ a' = a := by
  subst hown
  obtain ⟨id, hpair, hid, honly⟩ := h₀.own ha
  have haccount : accountLogin (withCredentials b uid a') =
      Function.update (accountLogin b) uid (some a'.login) := accountLogin_upsert b uid a'
  rcases hback.reaches (oneToOne_iff.mp h₀).right with ⟨hreached, id', m, hid', rfl⟩ | ⟨hmissed, rfl⟩
  · obtain rfl := (honly id').mp hid'
    have hwritten := k.documentLogin_data (P := P) (d := d) (m := m)
      (b := withCredentials b uid a') (v := a.login) hid
    rw [show OneToOne ((Operation.setData .userInfo id' (k.data d)).exec P m
      (withCredentials b uid a')).1 ↔ _ from oneToOne_own_iff h₀ hpair hfresh haccount hwritten, Option.some_inj, eq_comm]
    exact ⟨fun heq => Or.inl ⟨hreached, heq⟩,
      fun hor => hor.elim (fun hl => hl.2) (fun hr => absurd hreached hr.1)⟩
  · rw [oneToOne_account_iff h₀ ha hfresh haccount rfl, Option.some_inj]
    exact ⟨fun heq => Or.inr ⟨hmissed, login_injective heq⟩,
      fun hor => hor.elim (fun hl => absurd hl.1 hmissed) (fun hr => by rw [hr.2])⟩

/-- Auth has new credentials, and the write-back is for another document, if any. -/
theorem writesBack_other (hother : email ≠ a.email) : OneToOne b' ↔
    a' = a ∧ (Reaches ok b (k.query email) email (k.store · d) → ∀ id v,
      documentLogin b id = some v → v.1 = some (.string email) → k.rewrite d v = v) := by
  have haccount : accountLogin (withCredentials b uid a') =
      Function.update (accountLogin b) uid (some a'.login) := accountLogin_upsert b uid a'
  have hlogin : a'.login = a.login ↔ a' = a := ⟨login_injective, fun heq => by rw [heq]⟩
  rcases hback.reaches (oneToOne_iff.mp h₀).right with ⟨hreached, id, m, hid, rfl⟩ | ⟨hmissed, rfl⟩
  · obtain ⟨v, hv, he⟩ := email_field_iff.mp (show b.field .userInfo id .email = _ from hid)
    have hwritten := k.documentLogin_data (P := P) (d := d) (m := m)
      (b := withCredentials b uid a') hv
    rw [show OneToOne ((Operation.setData .userInfo id (k.data d)).exec P m
      (withCredentials b uid a')).1 ↔ _ from
        oneToOne_other_iff h₀ ha hid hother haccount hwritten, Option.some_inj, hlogin, hv,
      Option.some_inj]
    refine and_congr_right (fun _ => ⟨fun heq _ id' v' hv' he' => ?_, fun hall => ?_⟩)
    · obtain rfl := (oneToOne_iff.mp h₀).right id id' v v' hv hv' (he.trans he'.symm)
      obtain rfl := Option.some.inj (hv.symm.trans hv')
      exact heq
    · exact hall hreached id v hv he
  · rw [oneToOne_account_iff h₀ ha hfresh haccount rfl, Option.some_inj, hlogin]
    exact ⟨fun heq => ⟨heq, fun hreached => absurd hreached hmissed⟩, fun hand => hand.1⟩

end

theorem updateEmail_atomic (live : d.crashed = false) (h₀ : OneToOne b)
    (h : Completes (app P) (decidedBy ok)
      (running b l c (EditAccountVC.updateClicked vc .email d)) ls s') :
    OneToOne s'.store ↔ Atomic ok b d (.updateClicked vc .email) := by
  obtain ⟨b', d', rfl, ⟨rfl, -, hrefused⟩ | ⟨user, a, haccepted, -, u, hback⟩⟩ :=
    updateEmail_settles live (oneToOne_iff.mp h₀).right h
  · refine iff_of_true h₀ (fun user a haccepted => ?_)
    rcases hrefused user haccepted.signedIn (by rw [haccepted.account]; rfl) haccepted.valid with
      hmay | htaken
    · exact absurd haccepted.called (not_decidedBy hmay)
    · rw [haccepted.free] at htaken
      cases htaken
  · have honly : Atomic ok b d (.updateClicked vc .email) ↔
        EmailAtomic ok b (d.text vc .desiredTextField) vc user a := by
      refine ⟨fun hall => hall user a haccepted, fun hone user' a' haccepted' => ?_⟩
      obtain rfl := Option.some.inj (haccepted.signedIn.symm.trans haccepted'.signedIn)
      obtain rfl := Option.some.inj (haccepted.account.symm.trans haccepted'.account)
      exact hone
    have hfresh := freshFor_of_emailTaken haccepted.free a.password
    have hsame : (⟨d.text vc .desiredTextField, a.password⟩ : Credentials) = a ↔
        d.text vc .desiredTextField = a.email := by
      cases a
      simp
    rw [honly, EmailAtomic]
    split
    · next hown =>
      refine (writesBack_own h₀ haccepted.account hfresh hback hown).trans ?_
      rw [hsame]
      constructor
      · exact fun hor => hor.imp (fun hl => hl.1) (fun hr => hr.2)
      · intro hor
        by_cases hreached : Reaches ok b (.emailUserInfo vc user.email) user.email
            (.storeEmail · (d.text vc .desiredTextField))
        · exact Or.inl ⟨hreached, rfl⟩
        · exact Or.inr ⟨hreached, hor.resolve_left hreached⟩
    · next hother =>
      refine (writesBack_other h₀ haccepted.account hfresh hback hother).trans ?_
      rw [hsame]
      refine and_congr_right (fun _ => forall_congr' (fun hreached => ?_))
      obtain ⟨-, id, hid, -⟩ := hreached
      obtain ⟨v, hv, he⟩ := email_field_iff.mp (show b.field .userInfo id .email = _ from hid)
      constructor
      · intro hall
        have hwritten := (Prod.ext_iff.mp (hall id v hv he)).1
        rw [he] at hwritten
        exact Value.string.inj (Option.some.inj hwritten)
      · intro heq id' v' _ he'
        refine Prod.ext ?_ rfl
        rw [he', ← heq]
        rfl

theorem updatePassword_atomic (h₀ : OneToOne b)
    (h : Completes (app P) (decidedBy ok)
      (running b l c (EditAccountVC.updateClicked vc .password d)) ls s') :
    OneToOne s'.store ↔ Atomic ok b d (.updateClicked vc .password) := by
  obtain ⟨b', d', rfl, -, ⟨rfl, hrefused⟩ | ⟨user, a, haccepted, u, hback⟩⟩ :=
    updatePassword_settles (oneToOne_iff.mp h₀).right h
  · refine iff_of_true h₀ (fun user a haccepted => ?_)
    have hmay := hrefused user haccepted.signedIn (by rw [haccepted.account]; rfl) haccepted.valid
    exact absurd haccepted.called (not_decidedBy hmay)
  · have honly : Atomic ok b d (.updateClicked vc .password) ↔
        PasswordAtomic ok b (d.text vc .desiredTextField) vc user a := by
      refine ⟨fun hall => hall user a haccepted, fun hone user' a' haccepted' => ?_⟩
      obtain rfl := Option.some.inj (haccepted.signedIn.symm.trans haccepted'.signedIn)
      obtain rfl := Option.some.inj (haccepted.account.symm.trans haccepted'.account)
      exact hone
    have hfresh : FreshFor Prod.fst (accountLogin b) user.uid
        (some (Credentials.login ⟨a.email, d.text vc .desiredTextField⟩)) :=
      (oneToOne_iff.mp h₀).left.freshFor (accountLogin_eq_some.mpr ⟨a, haccepted.account, rfl⟩)
        (fun v hv => by rw [← Option.some.inj hv]; rfl)
    have hsame : (⟨a.email, d.text vc .desiredTextField⟩ : Credentials) = a ↔
        d.text vc .desiredTextField = a.password := by
      cases a
      simp
    rw [honly, PasswordAtomic]
    split
    · next hown =>
      refine (writesBack_own h₀ haccepted.account hfresh hback hown).trans ?_
      rw [hsame]
      constructor
      · exact fun hor => hor.imp (fun hl => hl.1) (fun hr => hr.2)
      · intro hor
        by_cases hreached : Reaches ok b (.passwordUserInfo vc user.email) user.email
            (.storePassword · (d.text vc .desiredTextField))
        · exact Or.inl ⟨hreached, rfl⟩
        · exact Or.inr ⟨hreached, hor.resolve_left hreached⟩
    · next hother =>
      refine (writesBack_other h₀ haccepted.account hfresh hback hother).trans ?_
      rw [hsame]
      refine and_congr_right (fun _ => forall_congr' (fun _ => ⟨fun hall id hid => ?_, ?_⟩))
      · obtain ⟨f, hf, he⟩ := Option.bind_eq_some_iff.mp hid
        have hv := documentLogin_eq_some.mpr ⟨f, hf, rfl⟩
        have hwritten := (Prod.ext_iff.mp (hall id _ hv he)).2
        rw [Backend.field, hf]
        exact hwritten.symm
      · intro hall id v hv he
        obtain ⟨f, hf, rfl⟩ := documentLogin_eq_some.mp hv
        have hpassword := hall id (by rw [Backend.field, hf]; exact he)
        rw [Backend.field, hf] at hpassword
        exact Prod.ext rfl hpassword.symm

/-! ### Deleting the account -/

theorem RemovesDocument.reaches (h₀ : Keyed Prod.fst (documentLogin b))
    (h : RemovesDocument (decidedBy ok) b c email b'.firestore none) :
    (Reaches ok b (.deletedUserInfo email) email .deleteUserInfo ∧ ∃ id,
      b.field .userInfo id .email = some (.string email) ∧
      documentLogin b' = Function.update (documentLogin b) id none) ∨
    ¬ Reaches ok b (.deletedUserInfo email) email .deleteUserInfo ∧
      documentLogin b' = documentLogin b := by
  generalize hF : b'.firestore = F at h
  cases h with
  | removed id hasked hfound hdeleted =>
    refine Or.inl ⟨⟨hasked, id, hfound, hdeleted⟩, id, hfound, ?_⟩
    rw [← documentLogin_delete (P := .sample) b id 0]
    funext id'
    rw [documentLogin, Backend.doc?, hF]
    rfl
  | left missed =>
    refine Or.inr ⟨not_reaches h₀ missed, ?_⟩
    funext id
    rw [documentLogin, Backend.doc?, hF]
    rfl

theorem RemovesAccount.deletes {shown : Bool} {u : UserSingleton} {v : UserView}
    (h : RemovesAccount (decidedBy ok) b c user shown u b'.accounts v none) :
    ((ok (.deleteUser user.uid) = true ∧ (b.accounts.get? user.uid).isSome = true) ∧
      accountLogin b' = Function.update (accountLogin b) user.uid none) ∨
    ¬ (ok (.deleteUser user.uid) = true ∧ (b.accounts.get? user.uid).isSome = true) ∧
      accountLogin b' = accountLogin b := by
  generalize hA : b'.accounts = A at h
  cases h with
  | removed hdeleted hknown =>
    refine Or.inl ⟨⟨hdeleted, hknown⟩, ?_⟩
    rw [← accountLogin_delete]
    funext uid
    rw [accountLogin, hA]
    rfl
  | left hrefused =>
    refine Or.inr ⟨fun hdeleted => not_decidedBy (hrefused hdeleted.2) hdeleted.1, ?_⟩
    funext uid
    rw [accountLogin, hA]
    rfl

/-- The two strands together: the account of the user's email and its document, or records
that are no partners. -/
theorem oneToOne_deletion_iff (h₀ : OneToOne b) {deleted reached : Prop}
    (haccount : (deleted ∧ (b.accounts.get? uid).isSome = true ∧
        accountLogin b' = Function.update (accountLogin b) uid none) ∨
      ¬ deleted ∧ accountLogin b' = accountLogin b)
    (hdocument : (reached ∧ ∃ id, b.field .userInfo id .email = some (.string email) ∧
        documentLogin b' = Function.update (documentLogin b) id none) ∨
      ¬ reached ∧ documentLogin b' = documentLogin b) :
    OneToOne b' ↔ if (b.accounts.get? uid).any (fun a => a.email = email) then deleted ↔ reached
      else ¬ deleted ∧ ¬ reached := by
  split
  · next hown =>
    obtain ⟨a, ha, hemail⟩ := (Option.any_eq_true ..).mp hown
    obtain rfl := of_decide_eq_true hemail
    obtain ⟨id, hpair, hid, honly⟩ := h₀.own ha
    have hlogin : accountLogin b uid = some a.login := hpair.symm.trans hid
    rcases haccount with ⟨hdeleted, -, haccount⟩ | ⟨hdeleted, haccount⟩
    · rcases hdocument with ⟨hreached, id', hid', hdocument⟩ | ⟨hreached, hdocument⟩
      · obtain rfl := (honly id').mp hid'
        rw [oneToOne_own_iff h₀ hpair freshFor_none haccount hdocument]
        exact iff_of_true rfl (iff_of_true hdeleted hreached)
      · rw [oneToOne_account_iff h₀ ha freshFor_none haccount hdocument]
        exact iff_of_false nofun (fun hiff => hreached (hiff.mp hdeleted))
    · rcases hdocument with ⟨hreached, id', hid', hdocument⟩ | ⟨hreached, hdocument⟩
      · obtain rfl := (honly id').mp hid'
        have hfresh := (oneToOne_iff.mp h₀).left.freshFor hlogin (x := accountLogin b uid)
          (fun v hv => by rw [hlogin] at hv; rw [← Option.some.inj hv])
        rw [oneToOne_own_iff h₀ hpair hfresh (haccount.trans (Function.update_eq_self _ _).symm)
          hdocument, hlogin]
        exact iff_of_false nofun (fun hiff => hdeleted (hiff.mpr hreached))
      · exact iff_of_true (h₀.frame haccount hdocument) (iff_of_false hdeleted hreached)
  · next hother =>
    rcases haccount with ⟨hdeleted, hsome, haccount⟩ | ⟨hdeleted, haccount⟩
    · obtain ⟨a, ha⟩ := Option.isSome_iff_exists.mp hsome
      have hne : email ≠ a.email := by
        rintro rfl
        exact hother (by rw [ha]; simp)
      rcases hdocument with ⟨hreached, id, hid, hdocument⟩ | ⟨hreached, hdocument⟩
      · rw [oneToOne_other_iff h₀ ha hid hne haccount hdocument]
        exact iff_of_false (fun hand => nomatch hand.1) (fun hand => hand.1 hdeleted)
      · rw [oneToOne_account_iff h₀ ha freshFor_none haccount hdocument]
        exact iff_of_false nofun (fun hand => hand.1 hdeleted)
    · rcases hdocument with ⟨hreached, id, hid, hdocument⟩ | ⟨hreached, hdocument⟩
      · obtain ⟨uid', a', ha', rfl, hpair⟩ := h₀.known hid
        have hlogin : accountLogin b uid' = some a'.login := accountLogin_eq_some.mpr ⟨a', ha', rfl⟩
        have hfresh := (oneToOne_iff.mp h₀).left.freshFor hlogin (x := accountLogin b uid')
          (fun v hv => by rw [hlogin] at hv; rw [← Option.some.inj hv])
        rw [oneToOne_own_iff h₀ hpair.symm hfresh
          (haccount.trans (Function.update_eq_self _ _).symm) hdocument, hlogin]
        exact iff_of_false nofun (fun hand => hand.2 hreached)
      · exact iff_of_true (h₀.frame haccount hdocument) ⟨hdeleted, hreached⟩

theorem deleteAccount_atomic (live : d.crashed = false) (h₀ : OneToOne b)
    (h : Completes (app P) (decidedBy ok)
      (running b l c (SettingsVC.deleteAccountClicked d)) ls s') :
    OneToOne s'.store ↔ Atomic ok b d .deleteAccountClicked := by
  have hmatched := oneToOne_iff.mp h₀
  cases huser : d.currentUser with
  | none =>
    rw [SettingsVC.deleteAccountClicked, EditAccountVC.withUser, huser] at h
    obtain rfl := h.done
    refine iff_of_true h₀ (fun user huser' => ?_)
    rw [huser] at huser'
    cases huser'
  | some user =>
    obtain ⟨d', -, hdocument, haccount⟩ := deleteAccount_settles live hmatched.right huser h
    have honly : Atomic ok b d .deleteAccountClicked ↔ DeletionAtomic ok b user := by
      refine ⟨fun hall => hall user huser, fun hone user' huser' => ?_⟩
      obtain rfl := Option.some.inj (huser.symm.trans huser')
      exact hone
    rw [honly, DeletionAtomic]
    exact oneToOne_deletion_iff h₀ (haccount.deletes.imp_left (fun h => ⟨h.1, h.1.2, h.2⟩))
      (hdocument.reaches hmatched.right)

/-! ### All four operations -/

def annAlone : State where
  store := .of [] [] [Dict.fields (Request.userDict "ann" "ann@mail.org" "secret") 0]
    [⟨"ann@mail.org", "secret"⟩]
  locals _ := .atMap ⟨0, "ann@mail.org"⟩
    (Dict.fields (Request.userDict "ann" "ann@mail.org" "secret") 0)
  jobs := []

theorem annAlone_oneToOne : OneToOne annAlone.store := by
  have hsingle : ∀ {α : Type} {x y : α} {i : ℕ}, [x][i]? = some y → i = 0 ∧ y = x := by
    intro α x y i h
    rw [List.getElem?_singleton] at h
    split at h
    · next hi => exact ⟨hi, (Option.some.inj h).symm⟩
    · cases h
  refine ⟨?_, ?_, ?_⟩
  · intro uid uid' a a' ha ha' _
    exact (hsingle ha).1.trans (hsingle ha').1.symm
  · intro uid a ha
    obtain ⟨rfl, rfl⟩ := hsingle ha
    exact ⟨0, by decide, by decide⟩
  · intro id f hf
    obtain ⟨rfl, rfl⟩ := hsingle hf
    exact ⟨0, _, rfl, rfl⟩

/-- The two strands of a deletion, the document first; the account's call gets the answer
`answer`. -/
def deletion (answer : Label) : List Label :=
  [.effect 0 0, .deliver 0 0, answer, .deliver 0 0, .effect 0 0, .deliver 0 0]

end SpotiFriend

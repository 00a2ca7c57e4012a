import SpotiFriend.Sequential.Operations

/-!
# Deleting an account

`deleteAccountClicked` starts two strands of calls that do not wait for each other: one
looks up the user's document and deletes it, the other deletes the account.
`RemovesDocument` and `RemovesAccount` say where each of them stands, and
`deleteAccount_settles` what the two leave, in whatever order their moves come.
-/

namespace SpotiFriend

open Async SpotiFriend.Action Store

variable {P : Platform} {may : Request → Bool → Prop} {b b' : Backend} {l : ℕ → Device} {c : ℕ}
  {d : Device} {vc : VC} {ls : List Label} {s' : State} {user : User}

def withoutDocument (b : Backend) (id : ℕ) : Backend :=
  b.setCollection .userInfo ((b.firestore .userInfo).delete id)

/-- Where the deletion of the document stands: Firestore and the job in flight. -/
inductive RemovesDocument (may : Request → Bool → Prop) (b : Backend) (c : ℕ) (u : String) :
    (CollectionName → Collection Fields) → Option Job → Prop
  | asking : RemovesDocument may b c u b.firestore (some ⟨c, .deletedUserInfo u, none⟩)
  | asked (hasked : may (.deletedUserInfo u) true) : RemovesDocument may b c u b.firestore
      (some ⟨c, .deletedUserInfo u, some (.ok (b.getDocuments (.userInfo u)))⟩)
  | unasked (e : String) (hasked : may (.deletedUserInfo u) false) :
      RemovesDocument may b c u b.firestore (some ⟨c, .deletedUserInfo u, some (.error e)⟩)
  | deleting (id : ℕ) (hasked : may (.deletedUserInfo u) true)
      (hfound : b.field .userInfo id .email = some (.string u)) :
      RemovesDocument may b c u b.firestore (some ⟨c, .deleteUserInfo id, none⟩)
  | deleted (id : ℕ) (hasked : may (.deletedUserInfo u) true)
      (hfound : b.field .userInfo id .email = some (.string u))
      (hdeleted : may (.deleteUserInfo id) true) :
      RemovesDocument may b c u (withoutDocument b id).firestore
        (some ⟨c, .deleteUserInfo id, some (.ok ())⟩)
  | undeleted (id : ℕ) (e : String) (hfound : b.field .userInfo id .email = some (.string u))
      (hdeleted : may (.deleteUserInfo id) false) :
      RemovesDocument may b c u b.firestore (some ⟨c, .deleteUserInfo id, some (.error e)⟩)
  | removed (id : ℕ) (hasked : may (.deletedUserInfo u) true)
      (hfound : b.field .userInfo id .email = some (.string u))
      (hdeleted : may (.deleteUserInfo id) true) :
      RemovesDocument may b c u (withoutDocument b id).firestore none
  | left (hmissed : may (.deletedUserInfo u) false ∨
      (∀ id, b.field .userInfo id .email ≠ some (.string u)) ∨
      ∃ id, b.field .userInfo id .email = some (.string u) ∧ may (.deleteUserInfo id) false) :
      RemovesDocument may b c u b.firestore none

/-- Where the deletion of the account stands: Auth, what the device holds, and the job in
flight. -/
inductive RemovesAccount (may : Request → Bool → Prop) (b : Backend) (c : ℕ) (user : User)
    (shown : Bool) (u : UserSingleton) :
    Collection Credentials → UserView → Option Job → Prop
  | waiting : RemovesAccount may b c user shown u b.accounts ⟨some user, shown, u⟩
      (some ⟨c, .deleteUser user.uid, none⟩)
  | done (hdeleted : may (.deleteUser user.uid) true)
      (hknown : (b.accounts.get? user.uid).isSome = true) :
      RemovesAccount may b c user shown u (b.accounts.delete user.uid) ⟨some user, shown, u⟩
        (some ⟨c, .deleteUser user.uid, some (.ok ())⟩)
  | refused (e : String) (hrefused : (b.accounts.get? user.uid).isSome = true →
      may (.deleteUser user.uid) false) :
      RemovesAccount may b c user shown u b.accounts ⟨some user, shown, u⟩
        (some ⟨c, .deleteUser user.uid, some (.error e)⟩)
  | removed (hdeleted : may (.deleteUser user.uid) true)
      (hknown : (b.accounts.get? user.uid).isSome = true) :
      RemovesAccount may b c user shown u (b.accounts.delete user.uid) ⟨none, false, u⟩ none
  | left (hrefused : (b.accounts.get? user.uid).isSome = true →
      may (.deleteUser user.uid) false) :
      RemovesAccount may b c user shown u b.accounts ⟨some user, shown, u⟩ none

theorem RemovesDocument.advance (hkeyed : Keyed Prod.fst (documentLogin b)) {u : String}
    {st st' : Backend} {d : Device} {locals' : ℕ → Device} {j : Job} {js : List Job}
    (h : RemovesDocument may b c u st.firestore (some j))
    (move : Advance (app P) may st (Function.update l c d) j st' locals' js) :
    ∃ x d', js = x.toList ∧ locals' = Function.update l c d' ∧ d'.userView = d.userView ∧
      st'.accounts = st.accounts ∧ RemovesDocument may b c u st'.firestore x := by
  generalize hF : st.firestore = F at h
  cases h with
  | asking =>
    obtain ⟨reply, hcall, rfl, rfl⟩ := move.of_call
    cases hcall with
    | done m hmay =>
      have hdocs : st.getDocuments (.userInfo u) = b.getDocuments (.userInfo u) :=
        Backend.getDocuments_congr (congrFun hF _)
      refine ⟨some ⟨c, .deletedUserInfo u, some (.ok (b.getDocuments (.userInfo u)))⟩, d, ?_, rfl,
        rfl, rfl, ?_⟩
      · rw [← hdocs]
        rfl
      · exact hF ▸ .asked hmay
    | failed e hmay =>
      exact ⟨some ⟨c, .deletedUserInfo u, some (.error e)⟩, d, rfl, rfl, rfl, rfl, hF ▸ .unasked e hmay⟩
  | asked hasked =>
    obtain ⟨m, -, rfl, rfl, rfl⟩ := move.of_deliver
    rcases query_cases hkeyed u with ⟨hnone, hmissing⟩ | ⟨id, f, hone, hf, hemail⟩
    · rw [hnone]
      exact ⟨none, d, rfl, rfl, rfl, rfl, hF ▸ .left (.inr (.inl hmissing))⟩
    · have hfield : b.field .userInfo id .email = some (.string u) := by
        rw [Backend.field, hf]
        exact hemail
      have hreply : (app P).resume (.deletedUserInfo u) m (.ok [⟨id, f⟩]) d =
          (d, [.deleteUserInfo id]) := by
        simp only [resume, handler, authState, SettingsVC.deletedUserInfoReply, orAlert_ok,
          forEach_issue]
        split <;> rfl
      rw [hone, hreply]
      exact ⟨some ⟨c, .deleteUserInfo id, none⟩, d, rfl, rfl, rfl, rfl,
        hF ▸ .deleting id hasked hfield⟩
  | unasked e hasked =>
    obtain ⟨m, -, rfl, rfl, rfl⟩ := move.of_deliver
    exact ⟨none, _, rfl, rfl, rfl, rfl, hF ▸ .left (.inl hasked)⟩
  | deleting id hasked hfound =>
    obtain ⟨reply, hcall, rfl, rfl⟩ := move.of_call
    cases hcall with
    | done m hmay =>
      refine ⟨some ⟨c, .deleteUserInfo id, some (.ok ())⟩, d, rfl, rfl, rfl, rfl, ?_⟩
      have hdelete : ((app P).exec (.deleteUserInfo id) m st).1.firestore =
          (withoutDocument b id).firestore := by
        simp only [Operation.exec, withoutDocument, Backend.setCollection_firestore, hF]
      rw [hdelete]
      exact .deleted id hasked hfound hmay
    | failed e hmay =>
      exact ⟨some ⟨c, .deleteUserInfo id, some (.error e)⟩, d, rfl, rfl, rfl, rfl,
        hF ▸ .undeleted id e hfound hmay⟩
  | deleted id hasked hfound hdeleted =>
    obtain ⟨m, -, rfl, rfl, rfl⟩ := move.of_deliver
    exact ⟨none, _, rfl, rfl, rfl, rfl, hF ▸ .removed id hasked hfound hdeleted⟩
  | undeleted id e hfound hdeleted =>
    obtain ⟨m, -, rfl, rfl, rfl⟩ := move.of_deliver
    exact ⟨none, _, rfl, rfl, rfl, rfl, hF ▸ .left (.inr (.inr ⟨id, hfound, hdeleted⟩))⟩

/-- Auth deletes the account, or it refuses and leaves all as it is. -/
theorem called_deleteUser {uid : ℕ} {reply : Except String (Request.deleteUser uid).Answer}
    (h : Called (app P) may (.deleteUser uid) b reply b') : b'.firestore = b.firestore ∧
    ((may (.deleteUser uid) true ∧ (b.accounts.get? uid).isSome = true ∧ reply = .ok () ∧
      b'.accounts = b.accounts.delete uid) ∨
    (∃ e, reply = .error e) ∧ b'.accounts = b.accounts ∧
      ((b.accounts.get? uid).isSome = true → may (.deleteUser uid) false)) := by
  cases h with
  | done m hmay =>
    cases haccount : b.accounts.get? uid with
    | none =>
      refine ⟨?_, Or.inr ⟨⟨Operation.userNotFound, ?_⟩, ?_, nofun⟩⟩ <;>
        simp [Operation.exec, haccount]
    | some a =>
      refine ⟨?_, Or.inl ⟨hmay, rfl, ?_, ?_⟩⟩ <;> simp [Operation.exec, haccount]
  | failed e hmay => exact ⟨rfl, Or.inr ⟨⟨e, rfl⟩, rfl, fun _ => hmay⟩⟩

/-- A move of the second strand touches Auth and what the device holds of the user. -/
theorem RemovesAccount.advance {shown : Bool} {u : UserSingleton} {st st' : Backend} {d : Device}
    {locals' : ℕ → Device} {j : Job} {js : List Job}
    (h : RemovesAccount may b c user shown u st.accounts d.userView (some j))
    (move : Advance (app P) may st (Function.update l c d) j st' locals' js) :
    ∃ y d', js = y.toList ∧ locals' = Function.update l c d' ∧ st'.firestore = st.firestore ∧
      RemovesAccount may b c user shown u st'.accounts d'.userView y := by
  generalize hA : st.accounts = A at h
  generalize hv : d.userView = v at h
  cases h with
  | waiting =>
    obtain ⟨reply, hcall, rfl, rfl⟩ := move.of_call
    obtain ⟨hfirestore, hcase⟩ := called_deleteUser hcall
    rw [hA] at hcase
    rcases hcase with ⟨hmay, hknown, rfl, haccounts⟩ | ⟨⟨e, rfl⟩, haccounts, hrefused⟩
    · refine ⟨some ⟨c, .deleteUser user.uid, some (.ok ())⟩, d, rfl, rfl, hfirestore, ?_⟩
      rw [haccounts, hv]
      exact .done hmay hknown
    · refine ⟨some ⟨c, .deleteUser user.uid, some (.error e)⟩, d, rfl, rfl, hfirestore, ?_⟩
      rw [haccounts, hv]
      exact .refused e hrefused
  | done hdeleted hknown =>
    obtain ⟨m, -, rfl, rfl, rfl⟩ := move.of_deliver
    refine ⟨none, _, rfl, rfl, rfl, ?_⟩
    have hview : ((app P).resume (.deleteUser user.uid) m (.ok ()) d).1.userView = ⟨none, false, u⟩ := by
      have hcurrent : d.currentUser = some user := congrArg UserView.currentUser hv
      have hshared : d.sharedUserInfo = u := congrArg UserView.sharedUserInfo hv
      simp [resume, handler, authState, SettingsVC.deleteUserReply, Device.userView, hcurrent,
        hshared]
    rw [hview, hA]
    exact .removed hdeleted hknown
  | refused e hrefused =>
    obtain ⟨m, -, rfl, rfl, rfl⟩ := move.of_deliver
    refine ⟨none, _, rfl, rfl, rfl, ?_⟩
    have hview : ((app P).resume (.deleteUser user.uid) m (.error e) d).1.userView = d.userView := rfl
    rw [hview, hA, hv]
    exact .left hrefused

/-- **A deletion of the account** comes to the end of both strands. -/
theorem deleteAccount_settles (live : d.crashed = false) (hkeyed : Keyed Prod.fst (documentLogin b))
    (huser : d.currentUser = some user)
    (h : Completes (app P) may (running b l c (SettingsVC.deleteAccountClicked d)) ls s') :
    ∃ d', s'.locals = Function.update l c d' ∧
      RemovesDocument may b c user.email s'.store.firestore none ∧
      RemovesAccount may b c user d.mapShown d.sharedUserInfo s'.store.accounts d'.userView none := by
  have hclick : SettingsVC.deleteAccountClicked d =
      (d, [.deletedUserInfo user.email, .deleteUser user.uid]) := by
    rw [SettingsVC.deleteAccountClicked, EditAccountVC.withUser, huser]
    exact andThen_issue _ live
  rw [hclick] at h
  refine h.strands (x := some ⟨c, .deletedUserInfo user.email, none⟩)
    (y := some ⟨c, .deleteUser user.uid, none⟩) (I := fun st locals x y => ∃ d',
      locals = Function.update l c d' ∧ RemovesDocument may b c user.email st.firestore x ∧
        RemovesAccount may b c user d.mapShown d.sharedUserInfo st.accounts d'.userView y)
    ?_ ?_ (List.Perm.refl _) ⟨d, rfl, .asking, ?_⟩
  · rintro st locals j y st' locals' js ⟨d₁, rfl, hdocument, haccount⟩ move
    obtain ⟨x, d₂, hjs, hlocals, hview, haccounts, hx⟩ := hdocument.advance hkeyed move
    exact ⟨x, hjs, d₂, hlocals, hx, by rw [hview, haccounts]; exact haccount⟩
  · rintro st locals x j st' locals' js ⟨d₁, rfl, hdocument, haccount⟩ move
    obtain ⟨y, d₂, hjs, hlocals, hfirestore, hy⟩ := haccount.advance move
    exact ⟨y, hjs, d₂, hlocals, by rw [hfirestore]; exact hdocument, hy⟩
  · have hview : d.userView = ⟨some user, d.mapShown, d.sharedUserInfo⟩ := by
      rw [Device.userView, huser]
    rw [hview]
    exact .waiting

end SpotiFriend

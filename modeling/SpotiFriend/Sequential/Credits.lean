import SpotiFriend.Sequential.Profile

/-!
# Links by email

A playlist knows its creator and those who have found it by their emails.  `Link` is
such a tie between an account and a playlist, `linksOf` records the ties as they are made,
and `LinksKept` says that each of them still leads to its account.

A tap and a creation are worked off move by move: `Linking` lists the places where a job
of theirs can be, `covers` the playlists that a call is about, and `step_linking` is the
account of one move.
-/

namespace SpotiFriend

open Async SpotiFriend.Action MapVC Store

inductive Link
  | credited (uid : ℕ) (coll : CollectionName) (id : ℕ)
  | created (uid : ℕ) (id : ℕ)
  deriving DecidableEq

/-- The link that a call of the user `uid` makes: the write to `hasFound` credits the
playlist, the new document is the user's. -/
def linkBy (uid : ℕ) (b : Backend) : Request → Option Link
  | .storeHasFound coll id _ _ => some (.credited uid coll id)
  | .addPlaylist _ _ _ _ _ => some (.created uid (b.firestore .userPlaylists).next)
  | _ => none

/-- The links that a move makes. -/
def linksOf (s : State) : Label → List Link
  | .effect i _ => (s.jobs[i]?.bind (fun j => (s.locals j.client).currentUser.bind (fun user =>
    linkBy user.uid s.store j.request))).toList
  | _ => []

/-- **The links lead to their accounts**: whoever was credited for a playlist is in its
`hasFound` with the current email, and was credited once; whoever created a playlist is in
it with the current email, and that is the email of this account's document alone. -/
structure LinksKept (links : List Link) (b : Backend) : Prop where
  found : ∀ uid coll id, .credited uid coll id ∈ links →
    ∃ a, b.accounts.get? uid = some a ∧ a.email ∈ b.hasFound coll id
  once : ∀ uid coll id, links.count (.credited uid coll id) ≤ 1
  author : ∀ uid id, .created uid id ∈ links → ∃ a, b.accounts.get? uid = some a ∧
    b.field .userPlaylists id .email = some (.string a.email) ∧
    ∃ D, Owner b a.email D ∧ b.field .userInfo D .password = some (.string a.password)

def Unlinked (b : Backend) (email : String) : Prop :=
  (∀ coll id, email ∉ b.hasFound coll id) ∧
    ∀ id, b.field .userPlaylists id .email ≠ some (.string email)

variable {P : Platform} {b b' : Backend} {c : ℕ} {d : Device} {e : String} {j : Job}
  {links : List Link} {uid id : ℕ} {coll : CollectionName} {a : Credentials} {m : ℤ} {s s' : State}
  {ℓ : Label} {user : User}

namespace LinksKept

theorem nil : LinksKept [] b := ⟨nofun, fun _ _ _ => Nat.zero_le _, nofun⟩

/-- A change that keeps the emails of the accounts that have links, and takes nobody out. -/
theorem frame (h : LinksKept links b) (honeToOne : OneToOne b')
    (haccounts : ∀ uid a, b.accounts.get? uid = some a →
      (∃ a', b'.accounts.get? uid = some a' ∧ a'.email = a.email) ∨ Unlinked b a.email)
    (hlists : ∀ coll id, b.hasFound coll id ⊆ b'.hasFound coll id)
    (hauthors : ∀ id v, b.field .userPlaylists id .email = some v →
      b'.field .userPlaylists id .email = some v) : LinksKept links b' := by
  refine ⟨fun uid coll id hlink => ?_, h.once, fun uid id hlink => ?_⟩
  · obtain ⟨a, ha, hmem⟩ := h.found uid coll id hlink
    rcases haccounts uid a ha with ⟨a', ha', hemail⟩ | hunlinked
    · exact ⟨a', ha', hlists coll id (hemail ▸ hmem)⟩
    · exact absurd hmem (hunlinked.1 coll id)
  · obtain ⟨a, ha, hfield, -⟩ := h.author uid id hlink
    rcases haccounts uid a ha with ⟨a', ha', hemail⟩ | hunlinked
    · exact ⟨a', ha', hauthors id _ (hemail ▸ hfield), honeToOne.document uid a' ha'⟩
    · exact absurd hfield (hunlinked.2 id)

theorem of_accounts (h : LinksKept links b) (honeToOne : OneToOne b')
    (haccounts : b'.accounts = b.accounts)
    (hlists : ∀ coll id, b.hasFound coll id ⊆ b'.hasFound coll id)
    (hauthors : ∀ id v, b.field .userPlaylists id .email = some v →
      b'.field .userPlaylists id .email = some v) : LinksKept links b' :=
  h.frame honeToOne (fun uid a ha => Or.inl ⟨a, by rw [haccounts]; exact ha, rfl⟩) hlists hauthors

theorem credit (h : LinksKept links b) (ha : b.accounts.get? uid = some a)
    (hmem : a.email ∈ b.hasFound coll id) (hnew : .credited uid coll id ∉ links) :
    LinksKept (links ++ [.credited uid coll id]) b := by
  refine ⟨fun uid' coll' id' hlink => ?_, fun uid' coll' id' => ?_, fun uid' id' hlink => ?_⟩
  · rcases List.mem_append.mp hlink with hlink | hlink
    · exact h.found uid' coll' id' hlink
    · cases List.mem_singleton.mp hlink
      exact ⟨a, ha, hmem⟩
  · rw [List.count_append, List.count_singleton]
    split
    · next heq =>
      cases beq_iff_eq.mp heq
      rw [List.count_eq_zero.mpr hnew]
    · exact h.once uid' coll' id'
  · rcases List.mem_append.mp hlink with hlink | hlink
    · exact h.author uid' id' hlink
    · cases List.mem_singleton.mp hlink

theorem create (h : LinksKept links b) (honeToOne : OneToOne b) (ha : b.accounts.get? uid = some a)
    (hfield : b.field .userPlaylists id .email = some (.string a.email)) :
    LinksKept (links ++ [.created uid id]) b := by
  refine ⟨fun uid' coll' id' hlink => ?_, fun uid' coll' id' => ?_, fun uid' id' hlink => ?_⟩
  · rcases List.mem_append.mp hlink with hlink | hlink
    · exact h.found uid' coll' id' hlink
    · cases List.mem_singleton.mp hlink
  · rw [List.count_append, List.count_singleton, if_neg (by simp)]
    exact h.once uid' coll' id'
  · rcases List.mem_append.mp hlink with hlink | hlink
    · exact h.author uid' id' hlink
    · cases List.mem_singleton.mp hlink
      exact ⟨a, ha, hfield, honeToOne.document uid a ha⟩

end LinksKept

/-! ### The registration of the users -/

def registration (b : Backend) (id : ℕ) : Option (Option Value × Login) :=
  (b.doc? .userInfo id).map (fun f => (f .username, f .email, f .password))

structure SameUsers (b b' : Backend) : Prop where
  accounts : b'.accounts = b.accounts
  registrations : registration b' = registration b

namespace SameUsers

theorem trans {b'' : Backend} (h : SameUsers b b') (h' : SameUsers b' b'') : SameUsers b b'' :=
  ⟨h'.accounts.trans h.accounts, h'.registrations.trans h.registrations⟩

theorem of_userInfo (haccounts : b'.accounts = b.accounts)
    (huserInfo : b'.firestore .userInfo = b.firestore .userInfo) : SameUsers b b' := by
  refine ⟨haccounts, funext (fun id => ?_)⟩
  rw [registration, Backend.doc?, huserInfo]
  rfl

theorem oneToOne (h : SameUsers b b') (h₀ : OneToOne b) : OneToOne b' := by
  have hlogin : ∀ b, documentLogin b = fun id => (registration b id).map Prod.snd := by
    intro b
    funext id
    rw [documentLogin, registration, Option.map_map]
    rfl
  exact h₀.frame (accountLogin_congr h.accounts) (by rw [hlogin, hlogin, h.registrations])

theorem isSome (h : SameUsers b b') (id : ℕ) :
    (b'.doc? .userInfo id).isSome = (b.doc? .userInfo id).isSome := by
  have hregistration := congrArg Option.isSome (congrFun h.registrations id)
  rwa [registration, registration, Option.isSome_map, Option.isSome_map] at hregistration

end SameUsers

theorem sameUsers_setData {data : Dict} (hthere : (b.doc? .userInfo id).isSome = true)
    (husername : data.fields m .username = none) (hemail : data.fields m .email = none)
    (hpassword : data.fields m .password = none) :
    SameUsers b ((Operation.setData .userInfo id data).exec P m b).1 := by
  refine ⟨rfl, funext (fun id' => ?_)⟩
  obtain ⟨f, hf⟩ := Option.isSome_iff_exists.mp hthere
  rw [registration, registration, doc?_setData]
  by_cases hid : id' = id
  · rw [if_pos ⟨rfl, hid⟩, hid, hf, Option.map_some, Option.map_some, Dict.merge_some,
      Dict.merge_some, Dict.merge_some, husername, hemail, hpassword]
    rfl
  · rw [if_neg (fun hand => hid hand.2)]

/-! ### The calls of a tap and of a creation -/

/-- The playlists that a call is about. -/
def covers : Request → CollectionName → ℕ → Prop
  | .checkPlaylists coll _, coll', _ => coll' = coll
  | .storeHasFound coll id _ _, coll', id' => coll' = coll ∧ id' = id
  | .addPlaylist _ _ _ _ _, coll', _ => coll' = .userPlaylists
  | _, _, _ => False

def Unrelated (j j' : Job) : Prop :=
  ∀ coll id, ¬ (covers j.request coll id ∧ covers j'.request coll id)

theorem Unrelated.symm {j j' : Job} (h : Unrelated j j') : Unrelated j' j :=
  fun coll id hand => h coll id ⟨hand.2, hand.1⟩

/-- Where a job of the device `c` can be while its user, with the email `e`, taps or creates
a playlist, and what is known there. -/
inductive Linking (c : ℕ) (e : String) (b : Backend) : Job → Prop
  | tapped (coll : CollectionName) (p : Coordinate) (playlists : coll ≠ .userInfo) :
      Linking c e b ⟨c, .checkPlaylists coll p, none⟩
  | checked (coll : CollectionName) (p : Coordinate) (docs : List Doc) (playlists : coll ≠ .userInfo)
      (nodup : (docs.map Document.id).Nodup)
      (shown : ∀ doc ∈ docs, ∀ l, getStrings doc.data .hasFound = some l →
        b.hasFound coll doc.id = l) :
      Linking c e b ⟨c, .checkPlaylists coll p, some (.ok docs)⟩
  | marking (coll : CollectionName) (id : ℕ) (l : List String) (playlists : coll ≠ .userInfo)
      (stored : l = b.hasFound coll id ++ [e]) (new : e ∉ b.hasFound coll id) :
      Linking c e b ⟨c, .storeHasFound coll id l e, none⟩
  | marked (coll : CollectionName) (id : ℕ) (l : List String) :
      Linking c e b ⟨c, .storeHasFound coll id l e, some (.ok ())⟩
  | asking (k : WriteBack) (hk : k = .found ∨ ∃ n, k = .created n) :
      Linking c e b ⟨c, k.query e, none⟩
  | foundUserInfo (docs : List Doc) (there : ∀ doc ∈ docs, (b.doc? .userInfo doc.id).isSome = true) :
      Linking c e b ⟨c, .foundUserInfo e, some (.ok docs)⟩
  | createdUserInfo (n : ℤ) (docs : List Doc)
      (there : ∀ doc ∈ docs, (b.doc? .userInfo doc.id).isSome = true) :
      Linking c e b ⟨c, .createdUserInfo e n, some (.ok docs)⟩
  | storeFound (id : ℕ) (n : ℤ) (there : (b.doc? .userInfo id).isSome = true)
      (reply : Option (Except String Unit)) (ok : ∀ e, reply ≠ some (.error e)) :
      Linking c e b ⟨c, .storeFound id n, reply⟩
  | storeCreated (id : ℕ) (n : ℤ) (there : (b.doc? .userInfo id).isSome = true)
      (reply : Option (Except String Unit)) (ok : ∀ e, reply ≠ some (.error e)) :
      Linking c e b ⟨c, .storeCreated id n, reply⟩
  | adding (title author : String) (p : Coordinate) (link : String)
      (reply : Option (Except String Unit)) (ok : ∀ e, reply ≠ some (.error e)) :
      Linking c e b ⟨c, .addPlaylist title author e p link, reply⟩

namespace Linking

/-- A job is not disturbed by a change of playlists that it is not about. -/
theorem frame (h : Linking c e b j) (husers : SameUsers b b')
    (hlists : ∀ coll id, covers j.request coll id → b'.hasFound coll id = b.hasFound coll id) :
    Linking c e b' j := by
  cases h with
  | tapped coll p playlists => exact .tapped coll p playlists
  | checked coll p docs playlists nodup shown =>
    exact .checked coll p docs playlists nodup
      (fun doc hdoc l hl => (hlists coll doc.id rfl).trans (shown doc hdoc l hl))
  | marking coll id l playlists stored new =>
    have hsame := hlists coll id ⟨rfl, rfl⟩
    exact .marking coll id l playlists (by rw [hsame]; exact stored) (by rw [hsame]; exact new)
  | marked coll id l => exact .marked coll id l
  | asking k hk => exact .asking k hk
  | foundUserInfo docs there =>
    exact .foundUserInfo docs (fun doc hdoc => by rw [husers.isSome]; exact there doc hdoc)
  | createdUserInfo n docs there =>
    exact .createdUserInfo n docs (fun doc hdoc => by rw [husers.isSome]; exact there doc hdoc)
  | storeFound id n there reply ok =>
    exact .storeFound id n (by rw [husers.isSome]; exact there) reply ok
  | storeCreated id n there reply ok =>
    exact .storeCreated id n (by rw [husers.isSome]; exact there) reply ok
  | adding title author p link reply ok => exact .adding title author p link reply ok

end Linking

/-- What a call leaves when it takes effect: the users are the same, the lists of playlists
that it is not about too, and its own job goes on. -/
structure LinkEffect (c : ℕ) (e : String) (b b' : Backend) (j j' : Job) : Prop where
  users : SameUsers b b'
  lists : ∀ coll id, ¬ covers j.request coll id → b'.hasFound coll id = b.hasFound coll id
  self : Linking c e b' j'

theorem LinkEffect.query {j' : Job} (h : Linking c e b j') : LinkEffect c e b b j j' :=
  ⟨⟨rfl, rfl⟩, fun _ _ _ => rfl, h⟩

theorem sameUsers_setCollection {C : Collection Fields} (hcoll : coll ≠ .userInfo) :
    SameUsers b (b.setCollection coll C) := by
  refine .of_userInfo rfl ?_
  rw [Backend.setCollection_firestore, Function.update_of_ne hcoll.symm]

theorem Linking.effect (h : Linking c e b j) (m : ℤ) (waiting : j.reply = none) :
    LinkEffect c e b (j.request.operation.exec P m b).1 j
      (j.answer (j.request.operation.exec P m b).2) := by
  cases h with
  | tapped coll p playlists =>
    refine .query (.checked coll p _ playlists Backend.nodup_getDocuments (fun doc hdoc l hl => ?_))
    exact Backend.hasFound_of_mem hdoc hl
  | marking coll id l playlists stored new =>
    refine ⟨sameUsers_setCollection playlists, fun coll' id' hnot => ?_, .marked coll id l⟩
    rw [hasFound_storeHasFound, if_neg (show ¬ (coll' = coll ∧ id' = id) from hnot)]
  | asking k hk =>
    have hthere : ∀ doc ∈ b.getDocuments (.userInfo e), (b.doc? .userInfo doc.id).isSome = true :=
      fun doc hdoc => Option.isSome_iff_exists.mpr ⟨_, (Backend.mem_getDocuments.mp hdoc).1⟩
    rcases hk with rfl | ⟨n, rfl⟩
    · exact .query (.foundUserInfo _ hthere)
    · exact .query (.createdUserInfo n _ hthere)
  | storeFound id n there reply ok =>
    have husers : SameUsers b ((Request.storeFound id n).operation.exec P m b).1 :=
      sameUsers_setData there rfl rfl rfl
    exact ⟨husers, fun coll' id' _ => hasFound_setData_of_absent rfl,
      .storeFound id n (by rw [husers.isSome]; exact there) _ nofun⟩
  | storeCreated id n there reply ok =>
    have husers : SameUsers b ((Request.storeCreated id n).operation.exec P m b).1 :=
      sameUsers_setData there rfl rfl rfl
    exact ⟨husers, fun coll' id' _ => hasFound_setData_of_absent rfl,
      .storeCreated id n (by rw [husers.isSome]; exact there) _ nofun⟩
  | adding title author p link reply ok =>
    refine ⟨sameUsers_setCollection nofun, fun coll' id' hnot => ?_, .adding title author p link _ nofun⟩
    show ((Operation.addDocument .userPlaylists _).exec P m b).1.hasFound coll' id' = _
    rw [Backend.hasFound, field_addDocument, if_neg (fun hand => hnot hand.1)]
    rfl
  | checked | marked | foundUserInfo | createdUserInfo => cases waiting

/-- **Links**: what a call of the signed-in user adds leads to the user. -/
theorem Linking.kept (h : Linking c e b j) (waiting : j.reply = none) (hkept : LinksKept links b)
    (h₀ : OneToOne b) (ha : b.accounts.get? uid = some a) (he : a.email = e) (m : ℤ) :
    LinksKept (links ++ (linkBy uid b j.request).toList) (j.request.operation.exec P m b).1 := by
  have honeToOne := (h.effect (P := P) m waiting).users.oneToOne h₀
  subst he
  cases h with
  | tapped coll p playlists =>
    rw [show linkBy uid b _ = none from rfl, Option.toList_none, List.append_nil]
    exact hkept
  | marking coll id l playlists stored new =>
    have hnew : .credited uid coll id ∉ links := by
      intro hlink
      obtain ⟨a', ha', hmem⟩ := hkept.found uid coll id hlink
      obtain rfl := Option.some.inj (ha.symm.trans ha')
      exact new hmem
    refine LinksKept.credit (hkept.of_accounts honeToOne rfl (fun coll' id' => ?_)
      (fun id' v hv => ?_)) ha ?_ hnew
    · rw [hasFound_storeHasFound]
      split
      · next hsame =>
        rw [hsame.1, hsame.2, stored]
        exact List.subset_append_left _ _
      · exact List.Subset.refl _
    · exact (field_setData_of_absent (by simp)).trans hv
    · rw [hasFound_storeHasFound, if_pos ⟨rfl, rfl⟩, stored]
      exact List.mem_append_right _ (List.mem_singleton.mpr rfl)
  | asking k hk =>
    rw [show linkBy uid b (k.query a.email) = none by cases k <;> rfl, Option.toList_none,
      List.append_nil, show ((k.query a.email).operation.exec P m b).1 = b by cases k <;> rfl]
    exact hkept
  | storeFound id n there reply ok =>
    rw [show linkBy uid b _ = none from rfl, Option.toList_none, List.append_nil]
    refine hkept.of_accounts honeToOne rfl (fun coll' id' => ?_)
      (fun id' v hv => (field_setData_of_absent (by simp)).trans hv)
    rw [hasFound_setData_of_absent (by simp)]
    exact List.Subset.refl _
  | storeCreated id n there reply ok =>
    rw [show linkBy uid b _ = none from rfl, Option.toList_none, List.append_nil]
    refine hkept.of_accounts honeToOne rfl (fun coll' id' => ?_)
      (fun id' v hv => (field_setData_of_absent (by simp)).trans hv)
    rw [hasFound_setData_of_absent (by simp)]
    exact List.Subset.refl _
  | adding title author p link reply ok =>
    refine LinksKept.create (hkept.of_accounts honeToOne rfl (fun _ _ => hasFound_addDocument)
      (fun _ _ => field_addDocument_of_some)) honeToOne ha ?_
    refine field_addDocument.trans ((if_pos ⟨rfl, rfl⟩).trans ?_)
    simp [Request.playlistDict, Entry.resolve]
  | checked | marked | foundUserInfo | createdUserInfo => cases waiting

def Device.identity (d : Device) : Option User × Bool × String :=
  (d.currentUser, d.mapShown, d.sharedUserInfo.email)

/-- What a handler leaves: the device's user, and calls that are about no more playlists than
the one that is handled. -/
structure LinkReply (c : ℕ) (e : String) (b : Backend) (j : Job) (d : Device)
    (p : Device × List Request) : Prop where
  identity : p.1.identity = d.identity
  each : ∀ r ∈ p.2, Linking c e b (.issue c r)
  within : ∀ r ∈ p.2, ∀ coll id, covers r coll id → covers j.request coll id
  apart : (p.2.map (Job.issue c)).Pairwise Unrelated

theorem LinkReply.of_forall {p : Device × List Request} (hidentity : p.1.identity = d.identity)
    (heach : ∀ r ∈ p.2, Linking c e b (.issue c r))
    (hnone : ∀ r ∈ p.2, ∀ coll id, ¬ covers r coll id) : LinkReply c e b j d p := by
  refine ⟨hidentity, heach, fun r hr coll id hcovers => absurd hcovers (hnone r hr coll id), ?_⟩
  rw [List.pairwise_map]
  exact List.pairwise_of_forall_mem_list (fun r hr _ _ coll id hand => hnone r hr coll id hand.1)

theorem LinkReply.of_nil {p : Device × List Request} (hidentity : p.1.identity = d.identity)
    (hnil : p.2 = []) : LinkReply c e b j d p := by
  refine .of_forall hidentity (fun r hr => ?_) (fun r hr => ?_)
  · rw [hnil] at hr
    exact absurd hr List.not_mem_nil
  · rw [hnil] at hr
    exact absurd hr List.not_mem_nil

theorem found?_apart {docs : List Doc} (hnodup : (docs.map Document.id).Nodup) :
    ((docs.filterMap (found? coll e)).map (Job.issue c : Request → Job)).Pairwise
      Unrelated := by
  rw [List.pairwise_map, List.pairwise_filterMap]
  refine (List.pairwise_map.mp hnodup).imp (fun {doc doc'} hne r hr r' hr' coll' id' hand => ?_)
  obtain ⟨l, -, -, rfl⟩ := found?_eq_some.mp hr
  obtain ⟨l', -, -, rfl⟩ := found?_eq_some.mp hr'
  exact hne (hand.1.2.symm.trans hand.2.2)

theorem createdUserInfoReply_keeps (n : ℤ) (docs : List Doc) :
    Keeps Device.identity (AddPlaylistVC.createdUserInfoReply n (.ok docs)) := by
  rw [AddPlaylistVC.createdUserInfoReply]
  split
  · exact Keeps.forEach (fun _ _ => Keeps.issue _)
  · exact Keeps.skip

theorem createdUserInfoReply_requests (n : ℤ) (docs : List Doc) (d : Device) :
    ∀ r ∈ (AddPlaylistVC.createdUserInfoReply n (.ok docs) d).2, ∃ doc ∈ docs,
      r = .storeCreated doc.id n := by
  rw [AddPlaylistVC.createdUserInfoReply]
  split
  · exact Issues.forEach (π := fun _ => ()) (v := ()) (fun _ _ => Keeps.issue _)
      (fun doc hdoc => Issues.issue ⟨doc, hdoc, rfl⟩) d rfl
  · exact Issues.skip (π := fun _ => ()) (v := ()) d rfl

/-- **Handlers** of a tap and of a creation. -/
theorem Linking.deliver (h : Linking c e b j) (m : ℤ) {a : Except String j.request.Answer}
    (answered : j.reply = some a) (live : d.crashed = false) (he : d.sharedUserInfo.email = e) :
    LinkReply c e b j d (resume P j.request m a d) := by
  subst he
  cases h with
  | checked coll p docs playlists nodup shown =>
    cases answered
    have hsub := checkPlaylists_requests coll docs d
    have hfound : ∀ r ∈ (resume P (.checkPlaylists coll p) m (.ok docs) d).2, ∃ doc ∈ docs, ∃ l,
        getStrings doc.data .hasFound = some l ∧ d.sharedUserInfo.email ∉ l ∧
        r = .storeHasFound coll doc.id (l ++ [d.sharedUserInfo.email]) d.sharedUserInfo.email := by
      intro r hr
      obtain ⟨doc, hdoc, hfound⟩ := List.mem_filterMap.mp (hsub.subset hr)
      exact ⟨doc, hdoc, found?_eq_some.mp hfound⟩
    refine ⟨checkPlaylistsReply_keeps (π := Device.identity) (fun _ _ _ _ => rfl) d, fun r hr => ?_,
      fun r hr => ?_, (found?_apart nodup).sublist (hsub.map _)⟩
    · obtain ⟨doc, hdoc, l, hl, hnot, rfl⟩ := hfound r hr
      have hstored := shown doc hdoc l hl
      exact .marking coll doc.id _ playlists (by rw [hstored]) (by rw [hstored]; exact hnot)
    · obtain ⟨doc, hdoc, l, hl, hnot, rfl⟩ := hfound r hr
      exact fun coll' id' hcovers => hcovers.1
  | marked coll id l =>
    cases answered
    refine .of_forall rfl (fun r hr => ?_) (fun r hr => ?_)
    · obtain rfl := List.mem_singleton.mp hr
      exact .asking .found (Or.inl rfl)
    · obtain rfl := List.mem_singleton.mp hr
      exact fun _ _ hcovers => hcovers
  | foundUserInfo docs there =>
    cases answered
    have hreply : resume P (.foundUserInfo d.sharedUserInfo.email) m (.ok docs) d = _ :=
      foundUserInfoReply_apply live docs
    rw [hreply]
    refine .of_forall rfl (fun r hr => ?_) (fun r hr => ?_)
    · obtain ⟨doc, hdoc, rfl⟩ := List.mem_map.mp hr
      exact .storeFound doc.id _ (there doc hdoc) none nofun
    · obtain ⟨doc, hdoc, rfl⟩ := List.mem_map.mp hr
      exact fun _ _ hcovers => hcovers
  | createdUserInfo n docs there =>
    cases answered
    have hrs := createdUserInfoReply_requests n docs d
    refine .of_forall (createdUserInfoReply_keeps n docs d) (fun r hr => ?_) (fun r hr => ?_)
    · obtain ⟨doc, hdoc, rfl⟩ := hrs r hr
      exact .storeCreated doc.id n (there doc hdoc) none nofun
    · obtain ⟨doc, hdoc, rfl⟩ := hrs r hr
      exact fun _ _ hcovers => hcovers
  | storeFound id n there reply ok =>
    cases a with
    | ok _ => exact .of_nil rfl rfl
    | error e => exact absurd answered (ok e)
  | storeCreated id n there reply ok =>
    cases a with
    | ok _ => exact .of_nil rfl rfl
    | error e => exact absurd answered (ok e)
  | adding title author p link reply ok =>
    cases a with
    | ok _ => exact .of_nil rfl rfl
    | error e => exact absurd answered (ok e)
  | tapped | marking | asking => cases answered

/-! ### One move of a tap or of a creation -/

def allSucceed (_ : Request) (x : Bool) : Prop := x = true

/-- The user of the device `c` taps or creates a playlist, from the state `s₀` on. -/
structure Busy (c : ℕ) (user : User) (s₀ : State) (links : List Link) (s : State) : Prop where
  jobs : ∀ j ∈ s.jobs, Linking c user.email s.store j
  apart : s.jobs.Pairwise Unrelated
  users : SameUsers s₀.store s.store
  identity : (s.locals c).identity = (some user, true, user.email)
  others : ∀ c', c' ≠ c → s.locals c' = s₀.locals c'
  kept : LinksKept links s.store

theorem Linking.client (h : Linking c e b j) : j.client = c := by cases h <;> rfl

/-- **One move** of a tap or of a creation. -/
theorem step_linking {s₀ : State} (h₀ : OneToOne s₀.store)
    (ha : s₀.store.accounts.get? user.uid = some a) (he : a.email = user.email)
    (h : Busy c user s₀ links s) (guard : sequentially allSucceed (fun _ _ _ => False) s ℓ)
    (move : Step (app P) s ℓ s') : Busy c user s₀ (links ++ linksOf s ℓ) s' := by
  have hnoFail : ∀ i err, ℓ ≠ .fail i err := by
    rintro i err rfl
    cases move with
    | @fail js₁ js₂ j err split waiting => cases guard j (by simp [split])
  have hcurrent : (s.locals c).currentUser = some user := congrArg Prod.fst h.identity
  have hemail : (s.locals c).sharedUserInfo.email = user.email := congrArg (fun p => p.2.2) h.identity
  have hjobs : (∀ j ∈ s'.jobs, Linking c user.email s'.store j) ∧ s'.jobs.Pairwise Unrelated := by
    refine move.jobs_apart Unrelated.symm (fun _ hR => hR) h.jobs h.apart ?_ ?_ ?_ ?_
    · rintro c' e rfl
      exact guard.2.elim
    · intro i j m _ hj waiting
      have heffect := (h.jobs j hj).effect (P := P) m waiting
      exact ⟨heffect.self, fun j' hj' hR => (h.jobs j' hj').frame heffect.users
        (fun coll id hcovers => heffect.lists coll id (fun hcovers' => hR coll id ⟨hcovers', hcovers⟩))⟩
    · intro i j err hℓ
      exact absurd hℓ (hnoFail i err)
    · intro js₁ j js₂ m a _ split answered live hR
      have hj := h.jobs j (mem_of_split split)
      rw [hj.client] at live ⊢
      have hreply := hj.deliver (P := P) m answered (by simpa using live) hemail
      exact ⟨hreply.each, hreply.apart, fun i hi r hr coll id hand =>
        hR i hi coll id ⟨hreply.within r hr coll id hand.2, hand.1⟩⟩
  cases move with
  | event c' e live => exact guard.2.elim
  | fail j err split waiting => exact absurd rfl (hnoFail _ err)
  | @effect js₁ js₂ j m split waiting =>
    have hj := h.jobs j (mem_of_split split)
    have heffect := hj.effect (P := P) m waiting
    have hlinks : linksOf s (.effect js₁.length m : Label) =
        (linkBy user.uid s.store j.request).toList := by
      simp only [linksOf, getElem?_split split, Option.bind_some, hj.client, hcurrent]
    rw [hlinks]
    exact ⟨hjobs.1, hjobs.2, h.users.trans heffect.users, h.identity, h.others,
      hj.kept waiting h.kept (h.users.oneToOne h₀) (by rw [h.users.accounts]; exact ha) he m⟩
  | @deliver js₁ js₂ j m a' split answered live =>
    have hj := h.jobs j (mem_of_split split)
    rw [hj.client] at live
    have hreply := hj.deliver (P := P) m answered (by simpa using live) hemail
    refine ⟨hjobs.1, hjobs.2, h.users, ?_, fun c' hc' => ?_, ?_⟩
    · rw [State.proceed_locals, hj.client, Function.update_self]
      exact hreply.identity.trans h.identity
    · rw [State.proceed_locals, hj.client, Function.update_of_ne hc']
      exact h.others c' hc'
    · rw [show linksOf s (.deliver js₁.length m : Label) = [] from rfl, List.append_nil]
      exact h.kept

/-- **A tap or a creation from its first call to its end.** -/
theorem busy_completes {s₀ : State} {ls : List Label} (h₀ : OneToOne s₀.store)
    (ha : s₀.store.accounts.get? user.uid = some a) (he : a.email = user.email)
    (h : Busy c user s₀ links s) (hc : Completes (app P) allSucceed s ls s') :
    Busy c user s₀ (links ++ collect (app P) linksOf s ls) s' :=
  hc.1.history (fun _ _ _ _ h guard move => step_linking h₀ ha he h guard move) h

end SpotiFriend

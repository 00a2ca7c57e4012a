import SpotiFriend.Spec.Crashes
import SpotiFriend.Spec.Reload
import SpotiFriend.Store.Board

/-!
# The playlists as a board

For all users together the playlists are a board: they are posted on it, who taps on one is
written down there, and the old ones come off when somebody looks at the map.  Here is the
board that the two collections of playlists make up, and what single calls do to it.

* `changed_of_docs`: what an input makes of the board, document by document;
* `SamePlaylists.board`: the calls that leave the playlists leave the board.
-/

namespace SpotiFriend

open Store

/-- What is on the board: a collection, and the fields of a playlist but for who has found it. -/
abbrev Card := CollectionName × Fields

def cardOf (coll : CollectionName) (f : Fields) : Card := (coll, Function.update f .hasFound none)

def postingOf (coll : CollectionName) (f : Fields) : Posting Card String :=
  ⟨cardOf coll f, (getStrings f .hasFound).map (fun l => {email | email ∈ l})⟩

/-- The playlists as a board. -/
def Backend.board (b : Backend) : Board (CollectionName × ℕ) Card String where
  posting k := if k.1 = .userInfo then none else (b.doc? k.1 k.2).map (postingOf k.1)
  used := {k | k.1 ≠ .userInfo ∧ k.2 < (b.firestore k.1).next}
  known := by
    rintro ⟨coll, id⟩ hk
    dsimp only
    split
    · rfl
    · next hcoll =>
      rw [Backend.doc?, (b.firestore coll).vacant id, Option.map_none]
      by_contra hid
      exact hk ⟨hcoll, Nat.lt_of_not_le hid⟩

def AtPlace (p : Coordinate) (x : Card) : Prop :=
  x.2 .latitude = some (.number p.latitude) ∧ x.2 .longitude = some (.number p.longitude)

def Old (P : Platform) (now : ℤ) (x : Card) : Prop := x.1 = .userPlaylists ∧
  ∃ dateUploaded, getTimestamp x.2 .date = some dateUploaded ∧ 7 < P.days dateUploaded now

/-- A call may fail; or there is a link at the coordinate that crashes the app where Spotify is
installed. -/
def Misses (fails : Prop) (B : Board (CollectionName × ℕ) Card String) :
    Board.Input Card String ℤ → Prop
  | .find place _ => fails ∨ ∃ k x, B.posting k = some x ∧ place x.content ∧
      canOpen (MapVC.linkOf x.content.2) = false
  | _ => fails

variable {P : Platform} {coll : CollectionName} {id : ℕ} {k : Field} {f : Fields} {m : ℤ}
  {b b' : Backend} {p : Coordinate} {r : Request} {data : Dict}

/-! ### Cards -/

theorem cardOf_field (hk : k ≠ .hasFound) : (cardOf coll f).2 k = f k := Function.update_of_ne hk ..

theorem atPlace_cardOf : AtPlace p (cardOf coll f) ↔ (Query.atCoordinate coll p).holds f = true := by
  rw [AtPlace, cardOf_field (by decide), cardOf_field (by decide), Query.holds_atCoordinate]

theorem linkOf_cardOf : MapVC.linkOf (cardOf coll f).2 = MapVC.linkOf f := by
  rw [MapVC.linkOf, cardOf_field (by decide), MapVC.linkOf]

theorem old_cardOf : Old P m (cardOf coll f) ↔
    coll = .userPlaylists ∧ MapVC.expired P m ⟨id, f⟩ = true := by
  rw [Old, getTimestamp, cardOf_field (by decide), MapVC.expired, Option.any_eq_true]
  simp only [decide_eq_true_eq]
  rfl

theorem Backend.board_posting (hcoll : coll ≠ .userInfo) :
    b.board.posting (coll, id) = (b.doc? coll id).map (postingOf coll) := if_neg hcoll

theorem Backend.posting_userInfo (hcoll : coll = .userInfo) : b.board.posting (coll, id) = none :=
  if_pos hcoll

/-- What an input makes of the board, document by document. -/
theorem changed_of_docs {fails : Prop} {i : Board.Input Card String ℤ} (m : ℤ)
    (hpost : ∀ content, i ≠ .post content)
    (hnext : ∀ coll, coll ≠ .userInfo → (b'.firestore coll).next = (b.firestore coll).next)
    (hnone : ∀ coll id, coll ≠ .userInfo → b.doc? coll id = none → b'.doc? coll id = none)
    (hsome : ∀ coll id f, coll ≠ .userInfo → b.doc? coll id = some f →
      (b'.doc? coll id).map (postingOf coll) = i.on m (postingOf coll f) ∨
        Misses fails b.board i ∧ b'.doc? coll id = some f) :
    Board.Step (Misses fails) b.board i b'.board := by
  refine .changed m hpost (Set.ext fun ⟨coll, id⟩ => and_congr_right fun hinfo => ?_)
    (fun ⟨coll, id⟩ => ?_)
  · rw [hnext coll hinfo]
  · by_cases hinfo : coll = .userInfo
    · left
      rw [Backend.posting_userInfo hinfo, Backend.posting_userInfo hinfo]
      rfl
    · rw [Backend.board_posting hinfo, Backend.board_posting hinfo]
      cases hf : b.doc? coll id with
      | none =>
        left
        rw [hnone coll id hinfo hf]
        rfl
      | some f =>
        exact (hsome coll id f hinfo hf).imp_right (fun ⟨hmiss, hsame⟩ => ⟨hmiss, by rw [hsame]⟩)

theorem on_expire (id : ℕ) : Board.Input.on m (.expire (Old P)) (postingOf coll f) =
    if coll = .userPlaylists ∧ MapVC.expired P m ⟨id, f⟩ = true then none else some (postingOf coll f) := by
  rw [Board.Input.on]
  congr 1
  exact propext old_cardOf

/-! ### Calls that leave the playlists -/

def SamePlaylists (b b' : Backend) : Prop :=
  ∀ coll, coll ≠ .userInfo → b'.firestore coll = b.firestore coll

theorem SamePlaylists.refl (b : Backend) : SamePlaylists b b := fun _ _ => rfl

theorem SamePlaylists.trans {b'' : Backend} (h : SamePlaylists b b') (h' : SamePlaylists b' b'') :
    SamePlaylists b b'' := fun coll hcoll => (h' coll hcoll).trans (h coll hcoll)

theorem SamePlaylists.doc (h : SamePlaylists b b') (hcoll : coll ≠ .userInfo) :
    b'.doc? coll id = b.doc? coll id := by rw [Backend.doc?, h coll hcoll, Backend.doc?]

/-- The board is determined by the playlists. -/
theorem SamePlaylists.board (h : SamePlaylists b b') : b'.board = b.board := by
  refine Board.ext (funext fun k => ?_) (Set.ext fun k => ?_)
  · obtain ⟨coll, id⟩ := k
    by_cases hcoll : coll = .userInfo
    · rw [Backend.posting_userInfo hcoll, Backend.posting_userInfo hcoll]
    · rw [Backend.board_posting hcoll, Backend.board_posting hcoll, h.doc hcoll]
  · refine and_congr_right (fun hcoll => ?_)
    rw [h _ hcoll]

def Request.changesPlaylists : Request → Bool
  | .storeHasFound _ _ _ _ => true
  | .addPlaylist _ _ _ _ _ => true
  | .deleteOldPlaylist _ => true
  | _ => false

theorem exec_playlists (m : ℤ) (b : Backend) (h : r.changesPlaylists = false) :
    SamePlaylists b (r.operation.exec P m b).1 := by
  intro coll hcoll
  cases r with
  | storeHasFound | addPlaylist | deleteOldPlaylist => cases h
  | _ =>
    rw [Operation.exec]
    repeat' split
    all_goals first
      | rfl
      | exact Function.update_of_ne hcoll ..

/-! ### Calls that change them -/

theorem firestore_addDocument (coll : CollectionName) :
    ((Operation.addDocument .userPlaylists data).exec P m b).1.firestore coll =
      if coll = .userPlaylists then (b.firestore .userPlaylists).add (data.fields m)
      else b.firestore coll := by
  rw [Operation.exec, Backend.setCollection_firestore]
  split
  · next hcoll => rw [hcoll, Function.update_self]
  · next hcoll => rw [Function.update_of_ne hcoll]

theorem samePlaylists_addDocument (h : SamePlaylists b b') (m : ℤ) :
    SamePlaylists ((Operation.addDocument .userPlaylists data).exec P m b).1
      ((Operation.addDocument .userPlaylists data).exec P m b').1 := by
  intro coll hcoll
  rw [firestore_addDocument, firestore_addDocument, h .userPlaylists (by decide), h coll hcoll]

theorem used_addDocument :
    ((Operation.addDocument .userPlaylists data).exec P m b).1.board.used =
      insert (.userPlaylists, (b.firestore .userPlaylists).next) b.board.used := by
  refine Set.ext (fun ⟨coll, id⟩ => ?_)
  rw [Set.mem_insert_iff]
  show (coll ≠ .userInfo ∧ id < Collection.next (Backend.firestore _ coll)) ↔
    _ ∨ (coll ≠ .userInfo ∧ id < (b.firestore coll).next)
  rw [firestore_addDocument]
  by_cases hcoll : coll = .userPlaylists
  · rw [if_pos hcoll, hcoll, Collection.next_add]
    simp only [ne_eq, reduceCtorEq, not_false_eq_true, true_and, Prod.mk.injEq]
    omega
  · simp [hcoll]

theorem posting_addDocument :
    ((Operation.addDocument .userPlaylists data).exec P m b).1.board.posting =
      Function.update b.board.posting (.userPlaylists, (b.firestore .userPlaylists).next)
        (some (postingOf .userPlaylists (data.fields m))) := by
  funext ⟨coll, id⟩
  by_cases hkey : (coll, id) = (.userPlaylists, (b.firestore .userPlaylists).next)
  · rw [hkey, Function.update_self, Backend.board_posting (by decide), doc?_addDocument,
      if_pos ⟨rfl, rfl⟩, Option.map_some]
  · rw [Function.update_of_ne hkey]
    by_cases hinfo : coll = .userInfo
    · rw [Backend.posting_userInfo hinfo, Backend.posting_userInfo hinfo]
    · rw [Backend.board_posting hinfo, Backend.board_posting hinfo, doc?_addDocument, if_neg]
      rintro ⟨rfl, rfl⟩
      exact hkey rfl

theorem firestore_deleteDocument (coll : CollectionName) :
    ((Operation.deleteDocument .userPlaylists id).exec P m b).1.firestore coll =
      if coll = .userPlaylists then (b.firestore .userPlaylists).delete id else b.firestore coll := by
  rw [Operation.exec, Backend.setCollection_firestore]
  split
  · next hcoll => rw [hcoll, Function.update_self]
  · next hcoll => rw [Function.update_of_ne hcoll]

end SpotiFriend

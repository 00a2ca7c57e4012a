import SpotiFriend.Model.App

/-!
# Documents under writes

`Backend.doc? b coll id` is the document with this ID, and all that is proved of
Firestore is said with it: one `simp` lemma an operation, and `exec_firestore`, the
four things that a call can do to Firestore.  `Backend.field` reads one field, `Owner`
says which `userInfo` document an email leads to, and `waitsToWrite` which of the jobs
in flight are going to write to a document.
-/

namespace SpotiFriend

open Async

def Backend.doc? (b : Backend) (coll : CollectionName) (id : ℕ) : Option Fields :=
  (b.firestore coll).get? id

namespace Backend

variable {b : Backend} {coll coll' : CollectionName} {id id' : ℕ} {q : Query}

theorem doc?_setCollection (C : Store.Collection Fields) :
    (b.setCollection coll C).doc? coll' id =
      if coll' = coll then C.get? id else b.doc? coll' id := by
  by_cases h : coll' = coll
  · rw [if_pos h, doc?, setCollection_firestore, h, Function.update_self]
  · rw [if_neg h, doc?, setCollection_firestore, Function.update_of_ne h]
    rfl

/-- A query result shows the documents that are there and pass the filters. -/
theorem mem_getDocuments {doc : Doc} : doc ∈ b.getDocuments q ↔
    b.doc? q.collection doc.id = some doc.data ∧ q.holds doc.data = true :=
  Store.Collection.mem_select

theorem getDocuments_congr {b' : Backend}
    (h : b'.firestore q.collection = b.firestore q.collection) :
    b'.getDocuments q = b.getDocuments q := by
  rw [getDocuments, getDocuments, h]

theorem nodup_getDocuments : ((b.getDocuments q).map Store.Document.id).Nodup :=
  Store.Collection.nodup_select _

end Backend

section

variable {P : Platform} {m : ℤ} {b : Backend} {coll coll' : CollectionName} {id id' : ℕ}
  {data : Dict}

theorem doc?_setData : ((Operation.setData coll id data).exec P m b).1.doc? coll' id' =
    if coll' = coll ∧ id' = id then some (data.merge m (b.doc? coll id)) else b.doc? coll' id' := by
  rw [Operation.exec, Backend.doc?_setCollection, Store.Collection.get?_upsert]
  by_cases hc : coll' = coll
  · subst hc
    by_cases hi : id' = id
    · simp [hi, Backend.doc?]
    · simp [hi, Backend.doc?]
  · simp [hc]

theorem doc?_addDocument : ((Operation.addDocument coll data).exec P m b).1.doc? coll' id' =
    if coll' = coll ∧ id' = (b.firestore coll).next then some (data.fields m)
    else b.doc? coll' id' := by
  rw [Operation.exec, Backend.doc?_setCollection, Store.Collection.get?_add]
  by_cases hc : coll' = coll
  · subst hc
    by_cases hi : id' = (b.firestore coll').next
    · simp [hi]
    · simp [hi, Backend.doc?]
  · simp [hc]

theorem doc?_deleteDocument : ((Operation.deleteDocument coll id).exec P m b).1.doc? coll' id' =
    if coll' = coll ∧ id' = id then none else b.doc? coll' id' := by
  rw [Operation.exec, Backend.doc?_setCollection, Store.Collection.get?_delete]
  by_cases hc : coll' = coll
  · subst hc
    by_cases hi : id' = id
    · simp [hi]
    · simp [hi, Backend.doc?]
  · simp [hc]

/-- **What a call does to Firestore**: it writes to a document, adds one, deletes one or
leaves all as they are. -/
theorem exec_firestore (o : Operation) (P : Platform) (m : ℤ) (b : Backend) :
    (∃ coll id data, o = .setData coll id data) ∨ (∃ coll data, o = .addDocument coll data) ∨
      (∃ coll id, o = .deleteDocument coll id) ∨ (o.exec P m b).1.firestore = b.firestore := by
  cases o with
  | setData coll id data => exact .inl ⟨coll, id, data, rfl⟩
  | addDocument coll data => exact .inr (.inl ⟨coll, data, rfl⟩)
  | deleteDocument coll id => exact .inr (.inr (.inl ⟨coll, id, rfl⟩))
  | _ =>
    refine .inr (.inr (.inr ?_))
    rw [Operation.exec]
    repeat' split
    all_goals rfl

end

theorem next_exec (o : Operation) (P : Platform) (m : ℤ) (b : Backend) (coll : CollectionName) :
    (b.firestore coll).next ≤ ((o.exec P m b).1.firestore coll).next := by
  have hset : ∀ (coll' : CollectionName) (C : Store.Collection Fields),
      (b.firestore coll').next ≤ C.next →
      (b.firestore coll).next ≤ ((b.setCollection coll' C).firestore coll).next := by
    intro coll' C hC
    rw [Backend.setCollection_firestore]
    by_cases hc : coll = coll'
    · rw [hc, Function.update_self]
      exact hC
    · rw [Function.update_of_ne hc]
  rcases exec_firestore o P m b with
    ⟨coll', id', data, rfl⟩ | ⟨coll', data, rfl⟩ | ⟨coll', id', rfl⟩ | hsame
  · exact hset coll' _ (Nat.le_max_left _ _)
  · exact hset coll' _ (Nat.le_succ _)
  · exact hset coll' _ (Nat.le_refl _)
  · rw [hsame]

/-! ### Fields -/

namespace Backend

def field (b : Backend) (coll : CollectionName) (id : ℕ) (k : Field) : Option Value :=
  (b.doc? coll id).bind (fun f => f k)

def hasFound (b : Backend) (coll : CollectionName) (id : ℕ) : List String :=
  ((b.field coll id .hasFound).bind Value.asStrings).getD []

/-- `email` is in the document's `hasFound`. -/
def foundBy (b : Backend) (coll : CollectionName) (id : ℕ) (email : String) : Bool :=
  (b.hasFound coll id).contains email

/-- A counter of a `userInfo` document; absent counts as `0`. -/
def counter (b : Backend) (id : ℕ) (k : Field) : ℤ :=
  ((b.field .userInfo id k).bind Value.asInt).getD 0

variable {b : Backend} {coll coll' : CollectionName} {id id' : ℕ} {k : Field} {email : String}

theorem foundBy_eq_true : b.foundBy coll id email = true ↔ email ∈ b.hasFound coll id := by
  rw [foundBy, List.contains_iff_mem]

theorem mem_hasFound : email ∈ b.hasFound coll id ↔
    ∃ l, b.field coll id .hasFound = some (.strings l) ∧ email ∈ l := by
  rw [hasFound]
  cases h : (b.field coll id .hasFound).bind Value.asStrings with
  | none =>
    simp only [Option.getD_none, List.not_mem_nil, false_iff]
    rintro ⟨l, hl, -⟩
    rw [hl] at h
    cases h
  | some l =>
    obtain ⟨v, hv, hvl⟩ := Option.bind_eq_some_iff.mp h
    obtain rfl := Value.asStrings_eq_some.mp hvl
    simp [hv]

theorem field_of_mem {q : Query} {doc : Doc} (h : doc ∈ b.getDocuments q) (k : Field) :
    b.field q.collection doc.id k = doc.data k := by
  rw [field, (mem_getDocuments.mp h).1]
  rfl

theorem hasFound_of_mem {q : Query} {doc : Doc} {l : List String} (h : doc ∈ b.getDocuments q)
    (hl : getStrings doc.data .hasFound = some l) : b.hasFound q.collection doc.id = l := by
  rw [hasFound, field_of_mem h]
  exact congrArg (Option.getD · []) hl

end Backend

section

variable {P : Platform} {m : ℤ} {b : Backend} {coll coll' : CollectionName} {id id' : ℕ}
  {data : Dict} {k : Field}

theorem field_setData : ((Operation.setData coll id data).exec P m b).1.field coll' id' k =
    if coll' = coll ∧ id' = id then (data.fields m k).or (b.field coll id k)
    else b.field coll' id' k := by
  rw [Backend.field, doc?_setData]
  split
  · rfl
  · rfl

theorem field_addDocument : ((Operation.addDocument coll data).exec P m b).1.field coll' id' k =
    if coll' = coll ∧ id' = (b.firestore coll).next then data.fields m k
    else b.field coll' id' k := by
  rw [Backend.field, doc?_addDocument]
  split
  · rfl
  · rfl

theorem field_setData_of_ne (h : coll' = coll → id' ≠ id) :
    ((Operation.setData coll id data).exec P m b).1.field coll' id' k = b.field coll' id' k := by
  rw [field_setData, if_neg (fun hc => h hc.1 hc.2)]

theorem field_setData_of_absent (h : data.fields m k = none) :
    ((Operation.setData coll id data).exec P m b).1.field coll' id' k = b.field coll' id' k := by
  rw [field_setData, h]
  split
  · next hc => rw [hc.1, hc.2]; rfl
  · rfl

theorem field_addDocument_of_some {v : Value} (h : b.field coll' id' k = some v) :
    ((Operation.addDocument coll data).exec P m b).1.field coll' id' k = some v := by
  rw [field_addDocument, if_neg]
  · exact h
  · rintro ⟨rfl, rfl⟩
    rw [Backend.field, Backend.doc?, (b.firestore coll').vacant _ (Nat.le_refl _)] at h
    cases h

theorem hasFound_addDocument :
    b.hasFound coll' id' ⊆ ((Operation.addDocument coll data).exec P m b).1.hasFound coll' id' := by
  intro x hx
  obtain ⟨l, hl, hmem⟩ := Backend.mem_hasFound.mp hx
  exact Backend.mem_hasFound.mpr ⟨l, field_addDocument_of_some hl, hmem⟩

theorem hasFound_setData_of_absent (h : data.fields m .hasFound = none) :
    ((Operation.setData coll id data).exec P m b).1.hasFound coll' id' = b.hasFound coll' id' := by
  rw [Backend.hasFound, field_setData_of_absent h]
  rfl

theorem hasFound_storeHasFound {l : List String} {email : String} :
    ((Request.storeHasFound coll id l email).operation.exec P m b).1.hasFound coll' id' =
      if coll' = coll ∧ id' = id then l else b.hasFound coll' id' := by
  rw [Backend.hasFound, field_setData]
  split
  · simp [Entry.resolve]
  · rfl

end

theorem merge_hasFound (l : List String) (m : ℤ) (old : Option Fields) :
    Dict.merge [(.hasFound, .value (.strings l))] m old =
      Function.update (old.getD fun _ => none) .hasFound (some (.strings l)) := by
  funext k
  rw [Dict.merge, Dict.fields_cons, Dict.fields_nil, Function.update_apply]
  by_cases h : k = .hasFound
  · rw [if_pos h, if_pos h]
    rfl
  · rw [if_neg h, if_neg h]
    cases old <;> rfl

/-! ### The document of an email -/

/-- Exactly one `userInfo` document carries the email: the document `id`. -/
def Owner (b : Backend) (email : String) (id : ℕ) : Prop :=
  (b.getDocuments (.userInfo email)).map Store.Document.id = [id]

instance (b : Backend) (email : String) (id : ℕ) : Decidable (Owner b email id) :=
  inferInstanceAs (Decidable (_ = _))

theorem owner_iff {b : Backend} {email : String} {id : ℕ} : Owner b email id ↔
    ∀ id', b.field .userInfo id' .email = some (.string email) ↔ id' = id := by
  have hmem : ∀ id', id' ∈ (b.getDocuments (.userInfo email)).map Store.Document.id ↔
      b.field .userInfo id' .email = some (.string email) := by
    intro id'
    rw [List.mem_map, Backend.field, Option.bind_eq_some_iff]
    constructor
    · rintro ⟨doc, hdoc, rfl⟩
      obtain ⟨hf, hq⟩ := Backend.mem_getDocuments.mp hdoc
      exact ⟨doc.data, hf, Query.holds_userInfo.mp hq⟩
    · rintro ⟨f, hf, he⟩
      exact ⟨⟨id', f⟩, Backend.mem_getDocuments.mpr ⟨hf, Query.holds_userInfo.mpr he⟩, rfl⟩
  constructor
  · intro h id'
    rw [← hmem, h, List.mem_singleton]
  · intro h
    obtain ⟨f, hf, he⟩ := Option.bind_eq_some_iff.mp ((h id).mpr rfl)
    have hsingle : b.getDocuments (.userInfo email) = [⟨id, f⟩] :=
      Store.Collection.select_eq_singleton hf (Query.holds_userInfo.mpr he)
        (fun id' f' hf' hq => (h id').mp (by
          rw [Backend.field, show b.doc? .userInfo id' = some f' from hf']
          exact Query.holds_userInfo.mp hq))
    rw [Owner, hsingle]
    rfl

namespace Owner

variable {b b' : Backend} {email : String} {id : ℕ}

theorem frame (h : Owner b email id)
    (hemail : ∀ id', b'.field .userInfo id' .email = b.field .userInfo id' .email) :
    Owner b' email id := by
  rw [owner_iff] at h ⊢
  intro id'
  rw [hemail, h]

/-- A query for the email of another document does not find this one. -/
theorem notMem (h : Owner b email id) {email' : String} (hne : email' ≠ email) :
    id ∉ (b.getDocuments (.userInfo email')).map Store.Document.id := by
  intro hmem
  obtain ⟨doc, hdoc, rfl⟩ := List.mem_map.mp hmem
  have hother : b.field .userInfo doc.id .email = some (.string email') :=
    (Backend.field_of_mem hdoc .email).trans
      (Query.holds_userInfo.mp (Backend.mem_getDocuments.mp hdoc).2)
  have hemail := (owner_iff.mp h doc.id).mpr rfl
  rw [hother] at hemail
  exact hne (Value.string.inj (Option.some.inj hemail))

end Owner

/-- Client `c` alone is signed in with the email `u`, exactly one `userInfo` document `D`
carries it, and `getUserInfo` has loaded that document; nothing is in flight. -/
structure Loaded (c : ℕ) (u : String) (D : ℕ) (s : State) : Prop where
  quiet : s.jobs = []
  signedIn : (s.locals c).currentUser.map User.email = some u
  alone : ∀ c', c' ≠ c → (s.locals c').currentUser.map User.email ≠ some u
  owner : Owner s.store u D
  agrees : ∃ f, s.store.doc? .userInfo D = some f ∧
    (s.locals c).sharedUserInfo = UserSingleton.reset.load f ∧
    (s.locals c).sharedUserInfo.email = u

def storedMiles (doc : Doc) : Option Double :=
  if (getString doc.data .username).isSome ∧ (getString doc.data .email).isSome then
    getDouble doc.data .mapRadius
  else none

theorem foldl_load_mapRadius (docs : List Doc) : ∀ u : UserSingleton,
    (docs.foldl (fun u doc => u.load doc.data) u).mapRadius =
      ((docs.filterMap storedMiles).getLast?.map (fun miles => miles.mul (.fin 1609))).getD
        u.mapRadius := by
  induction docs with
  | nil => exact fun _ => rfl
  | cons doc docs ih =>
    intro u
    have hload : (u.load doc.data).mapRadius =
        ((storedMiles doc).map (fun miles => miles.mul (.fin 1609))).getD u.mapRadius := by
      rw [UserSingleton.load, storedMiles]
      cases getString doc.data .username with
      | none => rfl
      | some username =>
        cases getString doc.data .email with
        | none => rfl
        | some email => rfl
    rw [List.foldl_cons, ih, hload]
    cases hmiles : storedMiles doc with
    | none => rw [List.filterMap_cons_none hmiles]; rfl
    | some miles =>
      rw [List.filterMap_cons_some hmiles, List.getLast?_cons]
      cases (docs.filterMap storedMiles).getLast? with
      | none => rfl
      | some _ => rfl

/-! ### Writes on their way -/

/-- The job is a write to the document that has not taken effect. -/
def waitsToWrite (coll : CollectionName) (id : ℕ) (j : Job) : Bool :=
  j.reply.isNone && match j.request.operation with
    | .setData coll' id' _ => coll' = coll && id' = id
    | _ => false

theorem waitsToWrite_iff {coll : CollectionName} {id : ℕ} {j : Job} :
    waitsToWrite coll id j = true ↔
      j.reply = none ∧ ∃ data, j.request.operation = .setData coll id data := by
  rw [waitsToWrite, Bool.and_eq_true, Option.isNone_iff_eq_none]
  refine and_congr_right (fun _ => ?_)
  split
  · next h =>
    simp only [h, Bool.and_eq_true, decide_eq_true_eq, Operation.setData.injEq]
    exact ⟨fun ⟨h₁, h₂⟩ => ⟨_, h₁, h₂, rfl⟩, fun ⟨_, h₁, h₂, _⟩ => ⟨h₁, h₂⟩⟩
  · next h =>
    simp only [Bool.false_eq_true, false_iff]
    rintro ⟨data, hd⟩
    exact h _ _ _ hd

end SpotiFriend

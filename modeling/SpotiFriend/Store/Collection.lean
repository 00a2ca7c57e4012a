import Mathlib.Data.List.Nodup
import Mathlib.Logic.Function.Basic

/-!
# Collections of documents

A collection keeps documents under IDs and never gives out an ID twice: `next` is
above every ID that was ever used, also above those whose document is deleted.
`upsert` writes to an ID whether or not it has a document, `add` takes a new ID.

All that is proved of a collection is said with `get?`: `mem_docs` and `mem_select`
turn a listing into it, and one `simp` lemma an operation says what it does to it.
-/

namespace Store

structure Document (δ : Type) where
  id : ℕ
  data : δ

/-- The documents, by ID.  From `next` on no ID has been used. -/
structure Collection (δ : Type) where
  next : ℕ
  get? : ℕ → Option δ
  vacant : ∀ id, next ≤ id → get? id = none

namespace Collection

variable {δ : Type} (C : Collection δ)

/-- The collection with the given documents under the IDs `0`, `1`, and so on. -/
def ofList (ds : List δ) : Collection δ where
  next := ds.length
  get? := fun i => ds[i]?
  vacant := fun _ hi => List.getElem?_eq_none hi

/-- The documents in the order of their IDs. -/
def docs : List (Document δ) :=
  (List.range C.next).filterMap (fun id => (C.get? id).map (Document.mk id))

def select (p : δ → Bool) : List (Document δ) := C.docs.filter (fun d => p d.data)

/-- Write to `id`: `f` is given the document that is there, if any. -/
def upsert (id : ℕ) (f : Option δ → δ) : Collection δ where
  next := max C.next (id + 1)
  get? := Function.update C.get? id (some (f (C.get? id)))
  vacant := by
    intro i hi
    rw [Function.update_of_ne (by omega)]
    exact C.vacant i (by omega)

/-- Store `d` under a new ID. -/
def add (d : δ) : Collection δ where
  next := C.next + 1
  get? := Function.update C.get? C.next (some d)
  vacant := by
    intro i hi
    rw [Function.update_of_ne (by omega)]
    exact C.vacant i (by omega)

def delete (id : ℕ) : Collection δ where
  next := C.next
  get? := Function.update C.get? id none
  vacant := by
    intro i hi
    by_cases h : i = id
    · rw [h, Function.update_self]
    · rw [Function.update_of_ne h]
      exact C.vacant i hi

@[simp] theorem next_add (d : δ) : (C.add d).next = C.next + 1 := rfl

@[simp] theorem next_delete (id : ℕ) : (C.delete id).next = C.next := rfl

theorem get?_upsert (id : ℕ) (f : Option δ → δ) (i : ℕ) :
    (C.upsert id f).get? i = if i = id then some (f (C.get? id)) else C.get? i := by
  by_cases h : i = id
  · rw [if_pos h, h]
    exact Function.update_self ..
  · rw [if_neg h]
    exact Function.update_of_ne h ..

theorem get?_add (d : δ) (i : ℕ) :
    (C.add d).get? i = if i = C.next then some d else C.get? i := by
  by_cases h : i = C.next
  · rw [if_pos h, h]
    exact Function.update_self ..
  · rw [if_neg h]
    exact Function.update_of_ne h ..

theorem get?_delete (id i : ℕ) :
    (C.delete id).get? i = if i = id then none else C.get? i := by
  by_cases h : i = id
  · rw [if_pos h, h]
    exact Function.update_self ..
  · rw [if_neg h]
    exact Function.update_of_ne h ..

@[simp] theorem get?_upsert_self (id : ℕ) (f : Option δ → δ) :
    (C.upsert id f).get? id = some (f (C.get? id)) := by rw [get?_upsert, if_pos rfl]

@[simp] theorem get?_add_next (d : δ) : (C.add d).get? C.next = some d := by
  rw [get?_add, if_pos rfl]

@[simp] theorem get?_delete_self (id : ℕ) : (C.delete id).get? id = none := by
  rw [get?_delete, if_pos rfl]

variable {C}

theorem lt_next {i : ℕ} {d : δ} (h : C.get? i = some d) : i < C.next := by
  by_contra hi
  rw [C.vacant i (by omega)] at h
  cases h

/-- **A listing shows exactly the documents that are there.** -/
theorem mem_docs {d : Document δ} : d ∈ C.docs ↔ C.get? d.id = some d.data := by
  rw [docs, List.mem_filterMap]
  constructor
  · rintro ⟨i, -, h⟩
    obtain ⟨x, hx, rfl⟩ := Option.map_eq_some_iff.mp h
    exact hx
  · intro h
    exact ⟨d.id, List.mem_range.mpr (lt_next h), by rw [h]; rfl⟩

theorem mem_select {p : δ → Bool} {d : Document δ} :
    d ∈ C.select p ↔ C.get? d.id = some d.data ∧ p d.data = true := by
  rw [select, List.mem_filter, mem_docs]

theorem map_id_docs :
    C.docs.map Document.id = (List.range C.next).filter (fun i => (C.get? i).isSome) := by
  rw [docs, List.map_filterMap, ← List.filterMap_eq_filter]
  refine List.filterMap_congr (fun i _ => ?_)
  cases h : C.get? i <;> simp [Option.guard, h]

theorem nodup_select (p : δ → Bool) : ((C.select p).map Document.id).Nodup := by
  refine List.Nodup.sublist (List.Sublist.map _ List.filter_sublist) ?_
  rw [map_id_docs]
  exact List.nodup_range.filter _

theorem docs_add (d : δ) : (C.add d).docs = C.docs ++ [⟨C.next, d⟩] := by
  rw [docs, next_add, List.range_succ, List.filterMap_append, docs]
  congr 1
  · refine List.filterMap_congr (fun i hi => ?_)
    rw [get?_add, if_neg (Nat.ne_of_lt (List.mem_range.mp hi))]
  · simp

/-- A document that is removed is not listed any more, and the others stay as they are. -/
theorem docs_delete (id : ℕ) : (C.delete id).docs = C.docs.filter (fun d => d.id ≠ id) := by
  rw [docs, next_delete, docs, List.filter_filterMap]
  refine List.filterMap_congr (fun i _ => ?_)
  rw [get?_delete]
  by_cases h : i = id
  · rw [if_pos h, h]
    cases C.get? id <;> simp [Option.filter]
  · rw [if_neg h]
    cases C.get? i <;> simp [Option.filter, h]

/-- When only the document `i` passes the test, the listing is that document. -/
theorem select_eq_singleton {p : δ → Bool} {i : ℕ} {x : δ} (hi : C.get? i = some x)
    (hx : p x = true) (honly : ∀ i' x', C.get? i' = some x' → p x' = true → i' = i) :
    C.select p = [⟨i, x⟩] := by
  have hmem : ∀ d ∈ C.select p, d = ⟨i, x⟩ := by
    rintro ⟨i', x'⟩ hd
    obtain ⟨h, hp⟩ := mem_select.mp hd
    obtain rfl : i' = i := honly i' x' h hp
    obtain rfl : x' = x := Option.some.inj (h.symm.trans hi)
    rfl
  have hself : (⟨i, x⟩ : Document δ) ∈ C.select p := mem_select.mpr ⟨hi, hx⟩
  have hnodup := (nodup_select (C := C) p).of_map
  cases hl : C.select p with
  | nil => rw [hl] at hself; cases hself
  | cons a l =>
    rw [hl] at hmem hnodup
    cases l with
    | nil => rw [hmem a (by simp)]
    | cons b l =>
      have hab : a = b := (hmem a (by simp)).trans (hmem b (by simp)).symm
      simp [hab] at hnodup

theorem select_eq_nil {p : δ → Bool} (h : ∀ i x, C.get? i = some x → p x = false) :
    C.select p = [] := by
  refine List.eq_nil_iff_forall_not_mem.mpr (fun d hd => ?_)
  obtain ⟨hd, hp⟩ := mem_select.mp hd
  rw [h d.id d.data hd] at hp
  cases hp

end Collection

end Store

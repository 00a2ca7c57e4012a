import SpotiFriend.Async.Jobs
import SpotiFriend.Spec.Documents

/-!
# The shapes of documents

A `Shape` says for each collection which documents it may hold.  A call `Fits` it when it
leaves the shape wherever it finds it, and a job is `Shaped` when its call fits and its
result shows only documents of the shape.

* `stored_exec`: a call that fits;
* `step_shaped`: the shape is kept as long as only calls are made that fit.
-/

namespace SpotiFriend

open Async

/-- Which documents each collection may hold. -/
abbrev Shape := CollectionName → Fields → Prop

def Stored (T : Shape) (b : Backend) : Prop := ∀ coll id f, b.doc? coll id = some f → T coll f

namespace Operation

/-- Where all documents have the shape, the call leaves them so. -/
def Fits (T : Shape) : Operation → Prop
  | .setData coll _ data => ∀ m old, (∀ f, old = some f → T coll f) → T coll (data.merge m old)
  | .addDocument coll data => ∀ m, T coll (data.fields m)
  | _ => True

def results : (o : Operation) → Except String o.Answer → List (CollectionName × Doc)
  | .getDocuments q, .ok docs => docs.map (fun doc => (q.collection, doc))
  | _, _ => []

@[simp] theorem results_error (o : Operation) (err : String) : o.results (.error err) = [] := by
  cases o <;> rfl

end Operation

/-- The call of the job fits, and its result shows documents of the shape. -/
structure Shaped (T : Shape) (j : Job) : Prop where
  fits : j.request.operation.Fits T
  shown : ∀ a, j.reply = some a → ∀ coll doc, (coll, doc) ∈ j.request.operation.results a →
    T coll doc.data

variable {P : Platform} {T : Shape} {s s' : State} {ℓ : Label} {b : Backend} {j : Job} {m : ℤ}

namespace Stored

theorem exec {o : Operation} (h : Stored T b) (ho : o.Fits T) : Stored T (o.exec P m b).1 := by
  intro coll id f hf
  rcases exec_firestore o P m b with
    ⟨coll', id', data, rfl⟩ | ⟨coll', data, rfl⟩ | ⟨coll', id', rfl⟩ | hsame
  · rw [doc?_setData] at hf
    split at hf
    · next hand =>
      obtain ⟨rfl, rfl⟩ := hand
      obtain rfl := Option.some.inj hf
      exact ho m _ (fun f hf => h coll id f hf)
    · exact h coll id f hf
  · rw [doc?_addDocument] at hf
    split at hf
    · next hand =>
      obtain ⟨rfl, rfl⟩ := hand
      obtain rfl := Option.some.inj hf
      exact ho m
    · exact h coll id f hf
  · rw [doc?_deleteDocument] at hf
    split at hf
    · cases hf
    · exact h coll id f hf
  · rw [Backend.doc?, hsame] at hf
    exact h coll id f hf

theorem results {o : Operation} (h : Stored T b) {coll : CollectionName} {doc : Doc}
    (hdoc : (coll, doc) ∈ o.results (o.exec P m b).2) : T coll doc.data := by
  cases o with
  | getDocuments q =>
    obtain ⟨doc', hdoc', heq⟩ := List.mem_map.mp hdoc
    cases heq
    exact h _ _ _ (Backend.mem_getDocuments.mp hdoc').1
  | _ => exact absurd hdoc List.not_mem_nil

end Stored

namespace Shaped

theorem issue {c : ℕ} {r : Request} (h : r.operation.Fits T) : Shaped T (.issue c r) :=
  ⟨h, fun _ hreply => by cases hreply⟩

theorem answer (h : Shaped T j) (hb : Stored T b) :
    Shaped T (j.answer (j.request.operation.exec P m b).2) := by
  refine ⟨h.fits, fun a ha coll doc hdoc => ?_⟩
  obtain rfl := Option.some.inj ha
  exact hb.results hdoc

theorem fail {err : String} (h : Shaped T j) : Shaped T (j.answer (.error err)) := by
  refine ⟨h.fits, fun a ha coll doc hdoc => ?_⟩
  obtain rfl := Option.some.inj ha
  have hnone := Operation.results_error j.request.operation err
  exact absurd (hnone ▸ hdoc) List.not_mem_nil

end Shaped

/-- **One move** keeps the shape, when it makes calls that fit. -/
theorem step_shaped (hstored : Stored T s.store) (hjobs : ∀ j ∈ s.jobs, Shaped T j)
    (move : Step (app P) s ℓ s')
    (hstart : ∀ c e, ℓ = .event c e → (s.locals c).crashed = false →
      ∀ r ∈ (start e (s.locals c)).2, r.operation.Fits T)
    (hresume : ∀ js₁ j js₂ m a, ℓ = .deliver js₁.length m → s.jobs = js₁ ++ j :: js₂ →
      j.reply = some a → Shaped T j →
      ∀ r ∈ (resume P j.request m a (s.locals j.client)).2, r.operation.Fits T) :
    Stored T s'.store ∧ ∀ j ∈ s'.jobs, Shaped T j := by
  constructor
  · cases move with
    | @effect js₁ js₂ j m split waiting => exact hstored.exec (hjobs j (mem_of_split split)).fits
    | event | fail | deliver => exact hstored
  · refine move.jobs (φ := fun _ j => Shaped T j) hjobs ?_ ?_ ?_ ?_
    · intro c e hℓ live r hr
      exact .issue (hstart c e hℓ (by simpa using live) r hr)
    · intro js₁ j js₂ m _ split _
      exact ⟨(hjobs j (mem_of_split split)).answer hstored,
        fun j' hj' => hjobs j' ((rest_sublist split).subset hj')⟩
    · intro js₁ j js₂ err _ split _
      exact (hjobs j (mem_of_split split)).fail
    · intro js₁ j js₂ m a hℓ split answered _ r hr
      exact .issue (hresume js₁ j js₂ m a hℓ split answered (hjobs j (mem_of_split split)) r hr)

end SpotiFriend

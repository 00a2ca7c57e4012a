import SpotiFriend.Async.Jobs
import SpotiFriend.Async.Run

/-!
# Where things come from

The history of a run is the list of its moves, each with the state before it.  `Traces` says
of a property of the clients and of one of the jobs in flight, both told by the history, that
the moves hand them on.

* `Traces.step`, `Traces.run`: all clients and jobs have their properties after every run.
* `Traces.untouched`: what the store has lost was taken by a job that has its property.
-/

namespace Async

variable {Client Request Err Local Store Event Moment : Type} {Answer : Request → Type}
  [DecidableEq Client]

def made (s : State Client Request Err Local Store Answer) (ℓ : Label Client Err Event Moment) :
    List (State Client Request Err Local Store Answer × Label Client Err Event Moment) := [(s, ℓ)]

/-- What the history tells of clients and of jobs, and every move hands on. -/
structure Traces (P : System Request Err Local Store Event Moment Answer)
    (φ : List (State Client Request Err Local Store Answer × Label Client Err Event Moment) →
      Client → Local → Prop)
    (ψ : List (State Client Request Err Local Store Answer × Label Client Err Event Moment) →
      Job Client Request Err Answer → Prop) : Prop where
  /-- The past only grows. -/
  grows : ∀ {h h' c d}, h ⊆ h' → φ h c d → φ h' c d
  growsJob : ∀ {h h' j}, h ⊆ h' → ψ h j → ψ h' j
  start : ∀ {h s c e}, (s, .event c e) ∈ h → P.live (s.locals c) = true → φ h c (s.locals c) →
    φ h c (P.start e (s.locals c)).1 ∧ ∀ r ∈ (P.start e (s.locals c)).2, ψ h (.issue c r)
  exec : ∀ {h s i m c r}, (s, .effect i m) ∈ h → s.jobs[i]? = some ⟨c, r, none⟩ →
    ψ h ⟨c, r, none⟩ → ψ h ⟨c, r, some (P.exec r m s.store).2⟩
  fail : ∀ {h c r err}, ψ h ⟨c, r, none⟩ → ψ h ⟨c, r, some (.error err)⟩
  resume : ∀ {h s i m c r a}, (s, .deliver i m) ∈ h → P.live (s.locals c) = true →
    φ h c (s.locals c) → ψ h ⟨c, r, some a⟩ → φ h c (P.resume r m a (s.locals c)).1 ∧
      ∀ r' ∈ (P.resume r m a (s.locals c)).2, ψ h (.issue c r')

namespace Traces

variable {P : System Request Err Local Store Event Moment Answer}
  {φ : List (State Client Request Err Local Store Answer × Label Client Err Event Moment) →
    Client → Local → Prop}
  {ψ : List (State Client Request Err Local Store Answer × Label Client Err Event Moment) →
    Job Client Request Err Answer → Prop}
  {G : State Client Request Err Local Store Answer → Label Client Err Event Moment → Prop}
  {s s' : State Client Request Err Local Store Answer} {ℓ : Label Client Err Event Moment}
  {ls : List (Label Client Err Event Moment)}
  {h : List (State Client Request Err Local Store Answer × Label Client Err Event Moment)}

/-- **One move.** -/
theorem step (T : Traces P φ ψ) (hs : (∀ c, φ h c (s.locals c)) ∧ ∀ j ∈ s.jobs, ψ h j)
    (move : Step P s ℓ s') :
    (∀ c, φ (h ++ made s ℓ) c (s'.locals c)) ∧ ∀ j ∈ s'.jobs, ψ (h ++ made s ℓ) j := by
  have hsub : h ⊆ h ++ made s ℓ := List.subset_append_left _ _
  have hmade : (s, ℓ) ∈ h ++ made s ℓ := List.mem_append_right _ (List.mem_singleton_self _)
  have hlocals : ∀ c, φ (h ++ made s ℓ) c (s.locals c) := fun c => T.grows hsub (hs.1 c)
  have hjobs : ∀ j ∈ s.jobs, ψ (h ++ made s ℓ) j := fun j hj => T.growsJob hsub (hs.2 j hj)
  have hproceed : ∀ c₀ d, φ (h ++ made s ℓ) c₀ d →
      ∀ c, φ (h ++ made s ℓ) c (Function.update s.locals c₀ d c) := by
    intro c₀ d hd c
    by_cases hc : c = c₀
    · rw [hc, Function.update_self]
      exact hd
    · rw [Function.update_of_ne hc]
      exact hlocals c
  constructor
  · cases move with
    | event c e live => exact hproceed c _ (T.start hmade live (hlocals c)).1
    | effect j m split waiting => exact hlocals
    | fail j err split waiting => exact hlocals
    | @deliver js₁ js₂ j m a split answered live =>
      have hj := hjobs j (mem_of_split split)
      rw [Job.eq_of_reply answered] at hj
      exact hproceed j.client _ (T.resume hmade live (hlocals j.client) hj).1
  · refine move.jobs (φ := fun _ j => ψ (h ++ made s ℓ) j) hjobs ?_ ?_ ?_ ?_
    · rintro c e rfl live
      exact (T.start hmade live (hlocals c)).2
    · rintro js₁ j js₂ m rfl split waiting
      refine ⟨?_, fun j' hj' => hjobs j' ((rest_sublist split).subset hj')⟩
      have hj := hjobs j (mem_of_split split)
      have hjob := getElem?_split split
      rw [Job.eq_of_reply waiting] at hj hjob
      exact T.exec hmade hjob hj
    · intro js₁ j js₂ err _ split waiting
      have hj := hjobs j (mem_of_split split)
      rw [Job.eq_of_reply waiting] at hj
      exact T.fail hj
    · rintro js₁ j js₂ m a rfl split answered live
      have hj := hjobs j (mem_of_split split)
      rw [Job.eq_of_reply answered] at hj
      exact (T.resume hmade live (hlocals j.client) hj).2

/-- **The rule for provenance.** -/
theorem run (T : Traces P φ ψ) (hs : (∀ c, φ [] c (s.locals c)) ∧ ∀ j ∈ s.jobs, ψ [] j)
    (hrun : Run P G s ls s') :
    (∀ c, φ (collect P made s ls) c (s'.locals c)) ∧ ∀ j ∈ s'.jobs, ψ (collect P made s ls) j :=
  hrun.history (I := fun h s => (∀ c, φ h c (s.locals c)) ∧ ∀ j ∈ s.jobs, ψ h j)
    (fun _ _ _ _ hs _ move => T.step hs move) (h := []) hs

/-- **What is lost was taken.**  What the store had at the start it has in the end, or there
was a first call that took it, which has its property then. -/
theorem untouched (T : Traces P φ ψ) (hs : (∀ c, φ [] c (s.locals c)) ∧ ∀ j ∈ s.jobs, ψ [] j)
    {I : Store → Prop} (hI : I s.store) (hrun : Run P G s ls s') : I s'.store ∨
    ∃ h t i m c r, h ⊆ collect P made s ls ∧ (∀ x ∈ h, I x.1.store) ∧ (t, .effect i m) ∈ h ∧
      t.jobs[i]? = some ⟨c, r, none⟩ ∧ ψ h ⟨c, r, none⟩ ∧ ¬ I (P.exec r m t.store).1 := by
  -- the invariant: as long as nothing was taken, all states so far have it
  have hend := hrun.history (w := made) (h := []) (I := fun h s =>
      ((∀ c, φ h c (s.locals c)) ∧ ∀ j ∈ s.jobs, ψ h j) ∧
      ((I s.store ∧ ∀ x ∈ h, I x.1.store) ∨
        ∃ h' t i m c r, h' ⊆ h ∧ (∀ x ∈ h', I x.1.store) ∧ (t, .effect i m) ∈ h' ∧
          t.jobs[i]? = some ⟨c, r, none⟩ ∧ ψ h' ⟨c, r, none⟩ ∧ ¬ I (P.exec r m t.store).1))
    ?_ ⟨hs, Or.inl ⟨hI, List.forall_mem_nil _⟩⟩
  · exact hend.2.imp And.left id
  · rintro h s ℓ s' ⟨hs, hstore⟩ - move
    have hsub : h ⊆ h ++ made s ℓ := List.subset_append_left _ _
    refine ⟨T.step hs move, ?_⟩
    rcases hstore with ⟨hI, hpast⟩ | ⟨h', t, i, m, c, r, hh', htaken⟩
    · have hpast' : ∀ x ∈ h ++ made s ℓ, I x.1.store := by
        intro x hx
        rcases List.mem_append.mp hx with hx | hx
        · exact hpast x hx
        · rw [List.mem_singleton.mp hx]
          exact hI
      cases move with
      | event | fail | deliver => exact Or.inl ⟨hI, hpast'⟩
      | @effect js₁ js₂ j m split waiting =>
        by_cases hI' : I (P.exec j.request m s.store).1
        · exact Or.inl ⟨hI', hpast'⟩
        · have hj := T.growsJob hsub (hs.2 j (mem_of_split split))
          have hjob := getElem?_split split
          rw [Job.eq_of_reply waiting] at hj hjob
          exact Or.inr ⟨_, s, js₁.length, m, j.client, j.request, fun _ hx => hx, hpast',
            List.mem_append_right _ (List.mem_singleton_self _), hjob, hj, hI'⟩
    · exact Or.inr ⟨h', t, i, m, c, r, fun _ hx => hsub (hh' hx), htaken⟩

end Traces

end Async

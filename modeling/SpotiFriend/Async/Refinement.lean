import SpotiFriend.Async.Sequential

/-!
# Sequential runs refine an atomic specification

A specification says with `T x a y` how an input `a` takes an abstract state `x` to `y`, all
at once; `Steps` are its runs.  An operation of a system is an event and many moves after it.

* `Run.refines`: when every operation, worked off to its end, is a run of the specification
  on the inputs that its event stands for, a sequential run is one on all the inputs.
-/

namespace Async

/-! ### Runs of a specification -/

section

variable {X α : Type} {T T' : X → α → X → Prop} {x y z : X} {a : α} {h h' : List α}

inductive Steps (T : X → α → X → Prop) : X → List α → X → Prop
  | nil (x : X) : Steps T x [] x
  | cons {x y z : X} {a : α} {h : List α} (move : T x a y) (rest : Steps T y h z) :
      Steps T x (a :: h) z

namespace Steps

theorem single (move : T x a y) : Steps T x [a] y := .cons move (.nil y)

theorem append (first : Steps T x h y) (rest : Steps T y h' z) : Steps T x (h ++ h') z := by
  induction first with
  | nil => exact rest
  | cons move _ ih => exact .cons move (ih rest)

theorem eq_of_nil (h : Steps T x [] y) : y = x := by
  cases h
  rfl

theorem of_single (h : Steps T x [a] y) : T x a y := by
  cases h with
  | cons move rest =>
    cases rest
    exact move

end Steps

end

/-! ### The refinement -/

variable {Client Request Err Local Store Event Moment : Type} {Answer : Request → Type}
  [DecidableEq Client] {P : System Request Err Local Store Event Moment Answer}
  {may : Request → Bool → Prop} {s s' : State Client Request Err Local Store Answer}
  {ls : List (Label Client Err Event Moment)} {X α : Type}
  {v : State Client Request Err Local Store Answer → Client → Event → List α}

def inputs (v : State Client Request Err Local Store Answer → Client → Event → List α)
    (s : State Client Request Err Local Store Answer) : Label Client Err Event Moment → List α
  | .event c e => v s c e
  | _ => []

/-- An operation with the outcomes that may be is one with any outcomes that include them. -/
theorem Completes.mono {may' : Request → Bool → Prop} (hmay : ∀ r x, may r x → may' r x)
    (h : Completes P may s ls s') : Completes P may' s ls s' := by
  refine ⟨h.1.mono (fun s ℓ guard => ?_), h.2⟩
  cases ℓ with
  | event c e => exact guard
  | effect i m => exact fun j hj => hmay _ _ (guard j hj)
  | fail i err => exact fun j hj => hmay _ _ (guard j hj)
  | deliver i m => trivial

theorem Completes.collect_inputs (h : Completes P may s ls s') : collect P (inputs v) s ls = [] := by
  obtain ⟨hrun, -⟩ := h
  induction hrun with
  | nil => rfl
  | @cons s s₁ s₂ ℓ ls guard move _ ih =>
    rw [collect_cons move, ih, List.append_nil]
    cases ℓ with
    | event c e => exact guard.2.elim
    | effect i m => rfl
    | fail i err => rfl
    | deliver i m => rfl

/-- An operation with nothing else in flight has the inputs of its event. -/
theorem collect_operation {c : Client} {e : Event} (hs : s.jobs = [])
    (live : P.live (s.locals c) = true)
    (h : Completes P may (running s.store s.locals c (P.start e (s.locals c))) ls s') :
    collect P (inputs v) s (.event c e :: ls) = v s c e := by
  have hstep := Step.event (P := P) (s := s) c e live
  rw [hs] at hstep
  have move : step P s (.event c e) =
      some (running s.store s.locals c (P.start e (s.locals c))) := step_iff P |>.mpr hstep
  rw [collect_cons move, h.collect_inputs, List.append_nil]
  rfl

/-- **Sequential refinement.** -/
theorem Run.refines {T : X → α → X → Prop} {R : State Client Request Err Local Store Answer → X → Prop}
    {E : State Client Request Err Local Store Answer → Client → Event → Prop}
    (hop : ∀ s c e ls s' x, R s x → E s c e → P.live (s.locals c) = true →
      Completes P may (running s.store s.locals c (P.start e (s.locals c))) ls s' →
      ∃ y, Steps T x (v s c e) y ∧ R s' y)
    (hrun : Run P (sequentially may E) s ls s') (hs : s.jobs = []) (hs' : s'.jobs = []) {x : X}
    (hx : R s x) : ∃ y, Steps T x (collect P (inputs v) s ls) y ∧ R s' y := by
  refine hrun.sequential_history (w := inputs v) (I := fun h s => ∃ y, Steps T x h y ∧ R s y)
    ?_ hs' (h := []) hs ⟨x, .nil x, hx⟩
  rintro h s c e ls s' ⟨y, hsteps, hy⟩ hs hE live hc
  obtain ⟨z, hop, hz⟩ := hop s c e ls s' y hy hE live hc
  rw [collect_operation hs live hc]
  exact ⟨z, hsteps.append hop, hz⟩

end Async

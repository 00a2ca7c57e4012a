import Mathlib.Order.Lattice
import SpotiFriend.Async.Run

/-!
# Clocks

The moments of a run as times: a request takes effect at the time of the services, and a
reply is handled at the time of its client.  `clocked T ls` says that the services show `T`
or later at first, that their clock never goes back and that no client's clock is ahead of
it.

* `Run.clocked_history`: what every move keeps that is made in time, a clocked run keeps.
-/

namespace Async

variable {Client Request Err Local Store Event Moment : Type} {Answer : Request → Type}
  [LinearOrder Moment]

/-- A request takes effect at the time `T` or later. -/
def onTime (T : Moment) : Label Client Err Event Moment → Bool
  | .effect _ m => T ≤ m
  | _ => true

/-- The time that has come at the services after the move: a client that shows `m` is not
ahead of them. -/
def tick (T : Moment) : Label Client Err Event Moment → Moment
  | .effect _ m => m
  | .deliver _ m => max T m
  | _ => T

/-- The clock of the services goes on from `T`, and no client's clock is ahead of it. -/
def clocked : Moment → List (Label Client Err Event Moment) → Bool
  | _, [] => true
  | T, ℓ :: ls => onTime T ℓ && clocked (tick T ℓ) ls

theorem le_tick {T : Moment} {ℓ : Label Client Err Event Moment} (h : onTime T ℓ = true) :
    T ≤ tick T ℓ := by
  cases ℓ with
  | event c e => exact le_refl T
  | effect i m => exact of_decide_eq_true h
  | fail i err => exact le_refl T
  | deliver i m => exact le_max_left T m

variable [DecidableEq Client] {P : System Request Err Local Store Event Moment Answer}
  {G : State Client Request Err Local Store Answer → Label Client Err Event Moment → Prop}
  {s s' : State Client Request Err Local Store Answer}
  {ls : List (Label Client Err Event Moment)}

/-- **The history rule with a clock.**  When every move that is made in time keeps an
invariant of what has been recorded, of the time and of the state, a clocked run does. -/
theorem Run.clocked_history {α : Type}
    {I : List α → Moment → State Client Request Err Local Store Answer → Prop}
    {log : State Client Request Err Local Store Answer → Label Client Err Event Moment → List α}
    (hstep : ∀ h T s ℓ s', I h T s → G s ℓ → onTime T ℓ = true → Step P s ℓ s' →
      I (h ++ log s ℓ) (tick T ℓ) s') (hrun : Run P G s ls s') :
    ∀ {h : List α} {T : Moment}, clocked T ls = true → I h T s →
      ∃ T', I (h ++ collect P log s ls) T' s' := by
  induction hrun with
  | nil =>
    intro h T _ hI
    rw [collect, List.append_nil]
    exact ⟨T, hI⟩
  | cons guard move _ ih =>
    intro h T hclock hI
    rw [clocked, Bool.and_eq_true] at hclock
    rw [collect, move, ← List.append_assoc]
    exact ih hclock.2 (hstep _ _ _ _ _ hI guard hclock.1 (step_iff P |>.mp move))

end Async

import Mathlib.Data.Int.Notation
import SpotiFriend.Async.Machine

/-!
# Runs

`Run P G s ls s'` is a run from `s` to `s'` that makes the moves `ls`, each of them
in a state where the guard `G` allows it.  The guard is where a result says which
events it is about, which requests may fail, and under which condition on the
state a move is made.

* `Run.invariant`: what every guarded move keeps, every guarded run keeps.
* `Run.ledger`: the same for a quantity that every move changes by a weight of its own.
* `Run.of_run`: a run may be computed, guard by guard and move by move.
* `Run.history`: the same for what is recorded along the run.
-/

namespace Async

variable {Client Request Err Local Store Event Moment : Type} {Answer : Request → Type}
  [DecidableEq Client]

section Run

variable (P : System Request Err Local Store Event Moment Answer)

/-- Make the moves one after the other, as long as the guard allows each. -/
def run (G : State Client Request Err Local Store Answer → Label Client Err Event Moment → Bool) :
    State Client Request Err Local Store Answer → List (Label Client Err Event Moment) →
    Option (State Client Request Err Local Store Answer)
  | s, [] => some s
  | s, ℓ :: ls => if G s ℓ then (step P s ℓ).bind (fun s' => run G s' ls) else none

/-- The weights of the moves of a run, added up. -/
def tally (w : State Client Request Err Local Store Answer → Label Client Err Event Moment → ℤ) :
    State Client Request Err Local Store Answer → List (Label Client Err Event Moment) → ℤ
  | _, [] => 0
  | s, ℓ :: ls => w s ℓ + match step P s ℓ with
    | some s' => tally w s' ls
    | none => 0

def collect {α : Type} (log : State Client Request Err Local Store Answer →
      Label Client Err Event Moment → List α) :
    State Client Request Err Local Store Answer → List (Label Client Err Event Moment) → List α
  | _, [] => []
  | s, ℓ :: ls => log s ℓ ++ match step P s ℓ with
    | some s' => collect log s' ls
    | none => []

/-- The weight `1` for the failure of a request of the given kind. -/
def failing (q : Request → Bool) (s : State Client Request Err Local Store Answer) :
    Label Client Err Event Moment → ℤ
  | .fail i _ => if s.jobs[i]?.any (fun j => q j.request) then 1 else 0
  | _ => 0

/-- A run whose moves all pass the guard. -/
inductive Run (G : State Client Request Err Local Store Answer → Label Client Err Event Moment →
      Prop) : State Client Request Err Local Store Answer → List (Label Client Err Event Moment) →
    State Client Request Err Local Store Answer → Prop
  | nil (s : State Client Request Err Local Store Answer) : Run G s [] s
  | cons {s s₁ s₂ : State Client Request Err Local Store Answer}
      {ℓ : Label Client Err Event Moment} {ls : List (Label Client Err Event Moment)}
      (guard : G s ℓ) (move : step P s ℓ = some s₁) (rest : Run G s₁ ls s₂) :
      Run G s (ℓ :: ls) s₂

end Run

variable {P : System Request Err Local Store Event Moment Answer}
  {G : State Client Request Err Local Store Answer → Label Client Err Event Moment → Prop}
  {s s' s'' : State Client Request Err Local Store Answer}
  {ls ls' : List (Label Client Err Event Moment)} {ℓ : Label Client Err Event Moment}

namespace Run

theorem prepend {s₁ : State Client Request Err Local Store Answer} (guard : G s ℓ)
    (move : Step P s ℓ s₁) (rest : Run P G s₁ ls s') : Run P G s (ℓ :: ls) s' :=
  .cons guard (step_iff P |>.mpr move) rest

theorem mono {H : State Client Request Err Local Store Answer → Label Client Err Event Moment → Prop}
    (hG : ∀ s ℓ, G s ℓ → H s ℓ) (h : Run P G s ls s') : Run P H s ls s' := by
  induction h with
  | nil => exact .nil _
  | cons guard move _ ih => exact .cons (hG _ _ guard) move ih

theorem of_run {G : State Client Request Err Local Store Answer → Label Client Err Event Moment →
      Bool} : ∀ {ls : List (Label Client Err Event Moment)}
    {s : State Client Request Err Local Store Answer}, run P G s ls = some s' →
    Run P (fun s ℓ => G s ℓ = true) s ls s' := by
  intro ls
  induction ls with
  | nil =>
    intro s h
    cases h
    exact .nil _
  | cons ℓ ls ih =>
    intro s h
    rw [run] at h
    split at h
    · next guard =>
      obtain ⟨s₁, move, rest⟩ := Option.bind_eq_some_iff.mp h
      exact .cons guard move (ih rest)
    · cases h

theorem exists_of_run {G : State Client Request Err Local Store Answer →
      Label Client Err Event Moment → Bool} {Q : State Client Request Err Local Store Answer → Bool}
    {l : List (Label Client Err Event Moment)} (h : (run P G s l).any Q = true) :
    ∃ s', Run P (fun s ℓ => G s ℓ = true) s l s' ∧ Q s' = true := by
  obtain ⟨s', hs', hQ⟩ := (Option.any_eq_true ..).mp h
  exact ⟨s', of_run hs', hQ⟩

/-- **The invariant rule.**  What every guarded move keeps, every guarded run keeps. -/
theorem invariant {I : State Client Request Err Local Store Answer → Prop}
    (hstep : ∀ s ℓ s', I s → G s ℓ → Step P s ℓ s' → I s') (h : Run P G s ls s') (hI : I s) :
    I s' := by
  induction h with
  | nil => exact hI
  | cons guard move _ ih => exact ih (hstep _ _ _ hI guard (step_iff P |>.mp move))

/-- **The ledger rule.**  When every guarded move changes a quantity by its weight, a run
changes it by the tally of the weights. -/
theorem ledger {I : State Client Request Err Local Store Answer → Prop}
    {Φ : State Client Request Err Local Store Answer → ℤ}
    {w : State Client Request Err Local Store Answer → Label Client Err Event Moment → ℤ}
    (hstep : ∀ s ℓ s', I s → G s ℓ → Step P s ℓ s' → I s' ∧ Φ s' = Φ s + w s ℓ)
    (h : Run P G s ls s') (hI : I s) : Φ s' = Φ s + tally P w s ls := by
  induction h with
  | nil => simp [tally]
  | cons guard move _ ih =>
    obtain ⟨hI', hΦ⟩ := hstep _ _ _ hI guard (step_iff P |>.mp move)
    rw [ih hI', hΦ, tally, move]
    exact Int.add_assoc ..

/-- **The history rule.**  When every guarded move keeps an invariant of the state and of
what has been recorded, a guarded run does. -/
theorem history {α : Type} {I : List α → State Client Request Err Local Store Answer → Prop}
    {w : State Client Request Err Local Store Answer → Label Client Err Event Moment → List α}
    (hstep : ∀ h s ℓ s', I h s → G s ℓ → Step P s ℓ s' → I (h ++ w s ℓ) s')
    (hrun : Run P G s ls s') : ∀ {h : List α}, I h s → I (h ++ collect P w s ls) s' := by
  induction hrun with
  | nil =>
    intro h hI
    rw [collect, List.append_nil]
    exact hI
  | cons guard move _ ih =>
    intro h hI
    rw [collect, move, ← List.append_assoc]
    exact ih (hstep _ _ _ _ hI guard (step_iff P |>.mp move))

end Run

theorem collect_cons {α : Type} {log : State Client Request Err Local Store Answer →
      Label Client Err Event Moment → List α} (move : step P s ℓ = some s') :
    collect P log s (ℓ :: ls) = log s ℓ ++ collect P log s' ls := by rw [collect, move]

/-- Two records of the same run that say the same of each of its moves. -/
theorem exists_mem_collect {α β : Type} {φ : α → Prop} {ψ : β → Prop}
    {log : State Client Request Err Local Store Answer → Label Client Err Event Moment → List α}
    {log' : State Client Request Err Local Store Answer → Label Client Err Event Moment → List β}
    (h : ∀ s ℓ, (∃ x ∈ log s ℓ, φ x) ↔ ∃ y ∈ log' s ℓ, ψ y) :
    ∀ {ls : List (Label Client Err Event Moment)} {s : State Client Request Err Local Store Answer},
    (∃ x ∈ collect P log s ls, φ x) ↔ ∃ y ∈ collect P log' s ls, ψ y := by
  intro ls
  induction ls with
  | nil => exact fun {s} => ⟨fun ⟨_, hx, _⟩ => (List.not_mem_nil hx).elim,
      fun ⟨_, hy, _⟩ => (List.not_mem_nil hy).elim⟩
  | cons ℓ ls ih =>
    intro s
    simp only [collect, List.mem_append, or_and_right, exists_or]
    refine or_congr (h s ℓ) ?_
    cases step P s ℓ with
    | none => simp
    | some s' => exact ih

theorem tally_sub (w w' : State Client Request Err Local Store Answer →
    Label Client Err Event Moment → ℤ) : ∀ (ls : List (Label Client Err Event Moment))
    (s : State Client Request Err Local Store Answer),
    tally P (fun s ℓ => w s ℓ - w' s ℓ) s ls = tally P w s ls - tally P w' s ls := by
  intro ls
  induction ls with
  | nil => intro s; rfl
  | cons ℓ ls ih =>
    intro s
    rw [tally, tally, tally]
    cases step P s ℓ with
    | none => simp
    | some s' =>
      simp only [ih]
      omega

end Async

import Mathlib.Logic.Hydra
import SpotiFriend.Async.Jobs
import SpotiFriend.Async.Run

/-!
# Coming to rest

Where a handler leaves only requests of a lower rank than the one it was called for, the
replies of an event come to an end.  `work` counts for each job in flight what is still
before it, and a move of a job replaces its count by finitely many lower ones: this is the
relation `CutExpand`, which is well-founded.

* `wellFounded_settling`: no moves without events go on for ever;
* `exists_atRest`: from every state such moves lead to rest, even if nothing fails.
-/

namespace Async

open Relation

variable {Client Request Err Local Store Event Moment : Type} {Answer : Request → Type}

def ofJob : Label Client Err Event Moment → Bool
  | .event _ _ => false
  | _ => true

def succeeds : Label Client Err Event Moment → Bool
  | .effect _ _ => true
  | .deliver _ _ => true
  | _ => false

theorem ofJob_of_succeeds {ℓ : Label Client Err Event Moment} (h : succeeds ℓ = true) :
    ofJob ℓ = true := by
  cases ℓ with
  | event c e => cases h
  | _ => rfl

/-- The moves that a job and what it leads to still have before them, by the rank of its
request. -/
def Job.left (rank : Request → ℕ) (j : Job Client Request Err Answer) : ℕ :=
  2 * rank j.request + if j.reply.isNone then 1 else 0

def work (rank : Request → ℕ) (s : State Client Request Err Local Store Answer) : Multiset ℕ :=
  (s.jobs.map (Job.left rank) : Multiset ℕ)

def Descends (P : System Request Err Local Store Event Moment Answer) (rank : Request → ℕ) : Prop :=
  ∀ r m a d, ∀ r' ∈ (P.resume r m a d).2, rank r' < rank r

/-- Nothing can happen any more but events: all jobs have their replies, and wait for clients
that make no move. -/
def AtRest (P : System Request Err Local Store Event Moment Answer)
    (s : State Client Request Err Local Store Answer) : Prop :=
  ∀ j ∈ s.jobs, j.reply.isSome = true ∧ P.live (s.locals j.client) = false

variable [DecidableEq Client] {P : System Request Err Local Store Event Moment Answer}
  {s s' : State Client Request Err Local Store Answer} {ℓ : Label Client Err Event Moment}
  {rank : Request → ℕ}

omit [DecidableEq Client] in
theorem Job.left_issue (c : Client) (r : Request) :
    (Job.issue c r : Job Client Request Err Answer).left rank = 2 * rank r + 1 := rfl

omit [DecidableEq Client] in
theorem Job.left_waiting {j : Job Client Request Err Answer} (waiting : j.reply = none) :
    j.left rank = 2 * rank j.request + 1 := by
  rw [left, waiting]
  rfl

omit [DecidableEq Client] in
theorem Job.left_answered {j : Job Client Request Err Answer} {a : Except Err (Answer j.request)}
    (answered : j.reply = some a) : j.left rank = 2 * rank j.request := by
  rw [left, answered]
  rfl

theorem cutExpand_of_perm {x : ℕ} {xs xs' js₁ js₂ : List ℕ} (ys : List ℕ)
    (hx : xs = js₁ ++ x :: js₂) (hys : ∀ y ∈ ys, y < x) (hxs' : xs'.Perm (js₁ ++ js₂ ++ ys)) :
    CutExpand (· < ·) (xs' : Multiset ℕ) (xs : Multiset ℕ) := by
  refine ⟨ys, x, fun y hy => hys y (Multiset.mem_coe.mp hy), ?_⟩
  rw [← Multiset.coe_singleton, Multiset.coe_add, Multiset.coe_add, Multiset.coe_eq_coe, hx]
  have hmiddle : (js₁ ++ x :: js₂).Perm (js₁ ++ js₂ ++ [x]) :=
    List.perm_middle.trans (List.perm_append_singleton ..).symm
  calc xs' ++ [x]
      _ |>.Perm (js₁ ++ js₂ ++ ys ++ [x]) := hxs'.append_right _
      _ |>.Perm (js₁ ++ js₂ ++ [x] ++ ys) := by
        rw [List.append_assoc, List.append_assoc _ [x]]
        exact List.perm_append_comm.append_left _
      _ |>.Perm (js₁ ++ x :: js₂ ++ ys) := hmiddle.symm.append_right _

/-- **A move of a job** replaces one count by lower ones. -/
theorem Step.cutExpand (hP : Descends P rank) (h : Step P s ℓ s') (hℓ : ofJob ℓ = true) :
    CutExpand (· < ·) (work rank s') (work rank s) := by
  -- a job that has got its reply
  have hanswer : ∀ {js₁ js₂ : List (Job Client Request Err Answer)} {j} {a} {st : Store},
      s.jobs = js₁ ++ j :: js₂ → j.reply = none →
      CutExpand (· < ·) (work rank (s.settle st (js₁ ++ j.answer a :: js₂))) (work rank s) := by
    intro js₁ js₂ j a st split waiting
    have hsplit : s.jobs.map (Job.left rank) =
        js₁.map (Job.left rank) ++ j.left rank :: js₂.map (Job.left rank) := by
      rw [split, List.map_append, List.map_cons]
    refine cutExpand_of_perm [(j.answer a).left rank] hsplit (fun y hy => ?_) ?_
    · rw [List.mem_singleton.mp hy, Job.left_waiting waiting, Job.left_answered (j.answer_reply a)]
      exact Nat.lt_succ_self _
    · rw [State.settle_jobs, List.map_append, List.map_cons]
      exact List.perm_middle.trans (List.perm_append_singleton ..).symm
  cases h with
  | event c e live => cases hℓ
  | effect j m split waiting => exact hanswer split waiting
  | fail j err split waiting => exact hanswer split waiting
  | @deliver js₁ js₂ j m a split answered live =>
    have hsplit : s.jobs.map (Job.left rank) =
        js₁.map (Job.left rank) ++ j.left rank :: js₂.map (Job.left rank) := by
      rw [split, List.map_append, List.map_cons]
    let new : List (Job Client Request Err Answer) :=
      (P.resume j.request m a (s.locals j.client)).2.map (Job.issue j.client)
    refine cutExpand_of_perm (new.map (Job.left rank)) hsplit (fun y hy => ?_) ?_
    · obtain ⟨j', hj', rfl⟩ := List.mem_map.mp hy
      obtain ⟨r, hr, rfl⟩ := List.mem_map.mp hj'
      have hlower := hP j.request m a (s.locals j.client) r hr
      rw [Job.left_issue, Job.left_answered answered]
      omega
    · rw [State.proceed_jobs, List.map_append, List.map_append]

/-- **No moves without events go on for ever.** -/
theorem wellFounded_settling (hP : Descends P rank) :
    WellFounded (fun s' s : State Client Request Err Local Store Answer =>
      ∃ ℓ : Label Client Err Event Moment, ofJob ℓ = true ∧ Step P s ℓ s') := by
  refine Subrelation.wf (r := InvImage (CutExpand (· < ·)) (work rank)) ?_
    (InvImage.wf _ Nat.lt_wfRel.wf.cutExpand)
  rintro s' s ⟨ℓ, hℓ, h⟩
  exact h.cutExpand hP hℓ

theorem exists_step [Nonempty Moment] (h : ¬ AtRest P s) :
    ∃ (ℓ : Label Client Err Event Moment) (s' : State Client Request Err Local Store Answer),
      succeeds ℓ = true ∧ Step P s ℓ s' := by
  obtain ⟨m⟩ := ‹Nonempty Moment›
  simp only [AtRest, not_forall] at h
  obtain ⟨j, hj, hmoves⟩ := h
  obtain ⟨js₁, js₂, split⟩ := List.append_of_mem hj
  cases hreply : j.reply with
  | none => exact ⟨_, _, rfl, .effect j m split hreply⟩
  | some a =>
    have live : P.live (s.locals j.client) = true := by
      by_contra hdead
      exact hmoves ⟨by rw [hreply]; rfl, Bool.eq_false_iff.mpr hdead⟩
    exact ⟨_, _, rfl, .deliver j m split hreply live⟩

/-- **From every state moves that do not fail lead to rest.** -/
theorem exists_atRest [Nonempty Moment] (hP : Descends P rank)
    (s : State Client Request Err Local Store Answer) :
    ∃ ls s', Run P (fun _ (ℓ : Label Client Err Event Moment) => succeeds ℓ = true) s ls s' ∧
      AtRest P s' := by
  have hwf : WellFounded (fun s' s : State Client Request Err Local Store Answer =>
      ∃ ℓ : Label Client Err Event Moment, ofJob ℓ = true ∧ Step P s ℓ s') := wellFounded_settling hP
  induction s using hwf.induction with
  | _ s ih =>
    by_cases hrest : AtRest P s
    · exact ⟨[], s, .nil s, hrest⟩
    · obtain ⟨ℓ, s₁, hℓ, move⟩ := exists_step hrest
      obtain ⟨ls, s', hrun, hrest'⟩ := ih s₁ ⟨ℓ, ofJob_of_succeeds hℓ, move⟩
      exact ⟨ℓ :: ls, s', .prepend hℓ move hrun, hrest'⟩

end Async

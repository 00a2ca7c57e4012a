import Mathlib.Data.List.Perm.Basic
import SpotiFriend.Async.Jobs
import SpotiFriend.Async.Run

/-!
# One operation after the other

In a sequential run events happen only with no job in flight, so that the run is a
sequence of operations: an event, and then moves of jobs until none is left
(`Completes`).  `may r true` says that the request `r` may take effect, and
`may r false` that it may fail.

* `Run.sequential`: what every operation keeps between the operations, a sequential
  run keeps; `Run.sequential_history` is the same with what is recorded on the way.
* `Called` is what a call may answer and leave in the store.  `Completes.call` works
  off an operation that has one job in flight at a time, call by call.
* `Completes.strands`: an operation with two strands of calls that do not wait for each
  other, by an invariant that a move of either strand keeps; `Completes.watched` is the same
  for one call and any number of jobs beside it.
-/

namespace Async

variable {Client Request Err Local Store Event Moment : Type} {Answer : Request → Type}
  [DecidableEq Client]

/-- Events with `E` and no job in flight, and calls with the outcomes that may be. -/
def sequentially (may : Request → Bool → Prop)
    (E : State Client Request Err Local Store Answer → Client → Event → Prop)
    (s : State Client Request Err Local Store Answer) : Label Client Err Event Moment → Prop
  | .event c e => s.jobs = [] ∧ E s c e
  | .effect i _ => ∀ j ∈ s.jobs[i]?, may j.request true
  | .fail i _ => ∀ j ∈ s.jobs[i]?, may j.request false
  | .deliver _ _ => True

def decidedBy (ok : Request → Bool) (r : Request) (x : Bool) : Prop := ok r = x

/-- What the call `r` may answer, and what it leaves in the store. -/
inductive Called (P : System Request Err Local Store Event Moment Answer)
    (may : Request → Bool → Prop) (r : Request) (st : Store) : Except Err (Answer r) → Store → Prop
  | done (m : Moment) (h : may r true) : Called P may r st (P.exec r m st).2 (P.exec r m st).1
  | failed (err : Err) (h : may r false) : Called P may r st (.error err) st

/-- A move of one job: it is answered, or its reply is delivered and the job is replaced by
the requests that the client leaves. -/
inductive Advance (P : System Request Err Local Store Event Moment Answer)
    (may : Request → Bool → Prop) (st : Store) (locals : Client → Local) :
    Job Client Request Err Answer → Store → (Client → Local) →
    List (Job Client Request Err Answer) → Prop
  | call {c : Client} {r : Request} {reply : Except Err (Answer r)} {st' : Store}
      (h : Called P may r st reply st') :
      Advance P may st locals ⟨c, r, none⟩ st' locals [⟨c, r, some reply⟩]
  | deliver {c : Client} {r : Request} {reply : Except Err (Answer r)} (m : Moment)
      (live : P.live (locals c) = true) :
      Advance P may st locals ⟨c, r, some reply⟩ st
        (Function.update locals c (P.resume r m reply (locals c)).1)
        ((P.resume r m reply (locals c)).2.map (Job.issue c))

/-- From `s` the jobs in flight are worked off by the moves `ls`, all of them, and leave
`s'`. -/
def Completes (P : System Request Err Local Store Event Moment Answer)
    (may : Request → Bool → Prop) (s : State Client Request Err Local Store Answer)
    (ls : List (Label Client Err Event Moment))
    (s' : State Client Request Err Local Store Answer) : Prop :=
  Run P (sequentially may (fun _ _ _ => False)) s ls s' ∧ s'.jobs = []

/-- Client `c` has gone over to the local state `p.1` and left the requests `p.2`. -/
def running (st : Store) (locals : Client → Local) (c : Client) (p : Local × List Request) :
    State Client Request Err Local Store Answer where
  store := st
  locals := Function.update locals c p.1
  jobs := p.2.map (Job.issue c)

section

variable (st : Store) (locals : Client → Local) (c : Client) (p : Local × List Request)

@[simp] theorem running_store :
    (running st locals c p : State Client Request Err Local Store Answer).store = st := rfl

@[simp] theorem running_locals :
    (running st locals c p : State Client Request Err Local Store Answer).locals =
      Function.update locals c p.1 := rfl

@[simp] theorem running_jobs :
    (running st locals c p : State Client Request Err Local Store Answer).jobs =
      p.2.map (Job.issue c) := rfl

end

variable {P : System Request Err Local Store Event Moment Answer} {may : Request → Bool → Prop}
  {E : State Client Request Err Local Store Answer → Client → Event → Prop}
  {s s' : State Client Request Err Local Store Answer}
  {ls : List (Label Client Err Event Moment)}

theorem Step.deliver_own {st : Store} {locals : Client → Local} {c : Client} {d d' : Local}
    {jobs js₁ js₂ : List (Job Client Request Err Answer)} {r : Request} {m : Moment}
    {a : Except Err (Answer r)} {rs : List Request} (split : jobs = js₁ ++ ⟨c, r, some a⟩ :: js₂)
    (live : P.live d = true) (hreply : P.resume r m a d = (d', rs)) :
    Step P ⟨st, Function.update locals c d, jobs⟩ (.deliver js₁.length m)
      ⟨st, Function.update locals c d', js₁ ++ js₂ ++ rs.map (Job.issue c)⟩ := by
  have move := Step.deliver (P := P) (s := ⟨st, Function.update locals c d, jobs⟩)
    ⟨c, r, some a⟩ m split rfl (by simpa using live)
  simpa [State.proceed, hreply] using move

/-! ### Sequential runs -/

/-- **The rule for sequential runs**, with what is recorded on the way. -/
theorem Run.sequential_history {α : Type}
    {w : State Client Request Err Local Store Answer → Label Client Err Event Moment → List α}
    {I : List α → State Client Request Err Local Store Answer → Prop}
    (hop : ∀ h s c e ls s', I h s → s.jobs = [] → E s c e → P.live (s.locals c) = true →
      Completes P may (running s.store s.locals c (P.start e (s.locals c))) ls s' →
      I (h ++ collect P w s (.event c e :: ls)) s')
    (hrun : Run P (sequentially may E) s ls s') (hs' : s'.jobs = []) : ∀ {h : List α},
    s.jobs = [] → I h s → I (h ++ collect P w s ls) s' := by
  -- in the middle of an operation, every state it can complete in has the invariant
  suffices hmid : ∀ h, (∀ ls₂ s₂, Completes P may s ls₂ s₂ → I (h ++ collect P w s ls₂) s₂) →
      I (h ++ collect P w s ls) s' by
    intro h hs hI
    refine hmid h (fun ls₂ s₂ h₂ => ?_)
    cases h₂.1 with
    | nil => simpa [collect] using hI
    | cons guard move _ =>
      cases step_iff P |>.mp move with
      | event => exact guard.2.elim
      | effect j m split => simp [hs] at split
      | fail j err split => simp [hs] at split
      | deliver j m split => simp [hs] at split
  induction hrun with
  | nil => exact fun h hmid => hmid [] _ ⟨.nil _, hs'⟩
  | @cons s s₁ s₂ ℓ ls guard move _ ih =>
    intro h hmid
    rw [collect_cons move, ← List.append_assoc]
    refine ih hs' _ (fun ls₃ s₃ h₃ => ?_)
    rw [List.append_assoc, ← collect_cons move]
    cases ℓ with
    | event c e =>
      obtain ⟨hs, hE⟩ := guard
      have hI : I (h ++ collect P w s []) s := hmid [] s ⟨.nil s, hs⟩
      rw [collect, List.append_nil] at hI
      cases step_iff P |>.mp move with
      | event _ _ live =>
        rw [hs] at h₃
        exact hop h s c e ls₃ s₃ hI hs hE live h₃
    | effect i m => exact hmid _ s₃ ⟨.cons guard move h₃.1, h₃.2⟩
    | fail i err => exact hmid _ s₃ ⟨.cons guard move h₃.1, h₃.2⟩
    | deliver i m => exact hmid _ s₃ ⟨.cons guard move h₃.1, h₃.2⟩

/-- **The rule for sequential runs.** -/
theorem Run.sequential {I : State Client Request Err Local Store Answer → Prop}
    (hop : ∀ s c e ls s', I s → s.jobs = [] → E s c e → P.live (s.locals c) = true →
      Completes P may (running s.store s.locals c (P.start e (s.locals c))) ls s' → I s')
    (hrun : Run P (sequentially may E) s ls s') (hs : s.jobs = []) (hs' : s'.jobs = [])
    (hI : I s) : I s' :=
  hrun.sequential_history (w := fun _ _ => ([] : List Unit)) (I := fun _ s => I s)
    (fun _ => hop) hs' (h := []) hs hI

/-- No events, and the calls are answered as `ok` says. -/
def answeredBy (ok : Request → Bool) (s : State Client Request Err Local Store Answer) :
    Label Client Err Event Moment → Bool
  | .event _ _ => false
  | .effect i _ => s.jobs[i]?.all (fun j => ok j.request)
  | .fail i _ => s.jobs[i]?.all (fun j => !ok j.request)
  | .deliver _ _ => true

theorem Completes.of_run {ok : Request → Bool} (h : Run P (fun s ℓ => answeredBy ok s ℓ = true) s ls s')
    (hs' : s'.jobs = []) : Completes P (decidedBy ok) s ls s' := by
  refine ⟨h.mono (fun s ℓ guard => ?_), hs'⟩
  cases ℓ with
  | event c e => cases guard
  | effect i m => exact fun j hj => (Option.all_eq_true ..).mp guard j hj
  | fail i err =>
    intro j hj
    have hfails := (Option.all_eq_true ..).mp guard j hj
    exact Bool.eq_false_iff.mpr (fun hok => by simp [hok] at hfails)
  | deliver i m => trivial

/-- Events of the client `c` with `E` and no job in flight, and no call fails. -/
def solo (c : Client) (E : State Client Request Err Local Store Answer → Event → Bool)
    (s : State Client Request Err Local Store Answer) : Label Client Err Event Moment → Bool
  | .event c' e => c' = c && s.jobs.isEmpty && E s e
  | .effect _ _ => true
  | .fail _ _ => false
  | .deliver _ _ => true

/-- **A run of one client** is sequential, and the other clients stay as they are. -/
theorem Run.solo {c : Client} {E : State Client Request Err Local Store Answer → Event → Bool}
    {q : Request → Bool → Prop} {l : Client → Local} (hmay : ∀ r, q r true)
    (h : Run P (fun s ℓ => solo c E s ℓ = true) s ls s') (hjobs : ∀ j ∈ s.jobs, j.client = c)
    (hl : ∀ c', c' ≠ c → s.locals c' = l c') : Run P (sequentially q (fun s c' e =>
      E s e = true ∧ c' = c ∧ ∀ c', c' ≠ c → s.locals c' = l c')) s ls s' := by
  induction h with
  | nil => exact .nil _
  | @cons s s₁ s₂ ℓ ls guard move _ ih =>
    have hothers := (step_iff P |>.mp move).others (c := c) ?_ hjobs
    · refine .cons ?_ move
        (ih hothers.2 (fun c' hc' => (hothers.1 c' hc').trans (hl c' hc')))
      cases ℓ with
      | event c' e =>
        simp only [Async.solo, Bool.and_eq_true, decide_eq_true_eq, List.isEmpty_iff] at guard
        exact ⟨guard.1.2, guard.2, guard.1.1, hl⟩
      | effect i m => exact fun j _ => hmay j.request
      | fail i err => cases guard
      | deliver i m => trivial
    · rintro c' e rfl
      simp only [Async.solo, Bool.and_eq_true, decide_eq_true_eq] at guard
      exact guard.1.1

/-! ### One job at a time -/

theorem Step.advance {s₁ : State Client Request Err Local Store Answer}
    {ℓ : Label Client Err Event Moment} (move : Step P s ℓ s₁)
    (guard : sequentially may (fun _ _ _ => False) s ℓ) : ∃ js₁ j js₂ js,
    s.jobs = js₁ ++ j :: js₂ ∧ Advance P may s.store s.locals j s₁.store s₁.locals js ∧
      (s₁.jobs = js₁ ++ js ++ js₂ ∨ s₁.jobs = js₁ ++ js₂ ++ js) := by
  cases move with
  | event => exact guard.2.elim
  | @effect js₁ js₂ j m split waiting =>
    have hmay : may j.request true := guard j (by simp [split])
    rw [Job.eq_of_reply waiting] at split
    exact ⟨js₁, _, js₂, _, split, .call (.done m hmay), .inl (by simp [Job.answer])⟩
  | @fail js₁ js₂ j err split waiting =>
    have hmay : may j.request false := guard j (by simp [split])
    rw [Job.eq_of_reply waiting] at split
    exact ⟨js₁, _, js₂, _, split, .call (.failed err hmay), .inl (by simp [Job.answer])⟩
  | @deliver js₁ js₂ j m a split answered live =>
    rw [Job.eq_of_reply answered] at split
    exact ⟨js₁, _, js₂, _, split, .deliver m live, .inr rfl⟩

namespace Completes

theorem of_jobs_nil (h : Completes P may s ls s') (hs : s.jobs = []) : s' = s := by
  cases h.1 with
  | nil => rfl
  | cons guard move _ =>
    cases step_iff P |>.mp move with
    | event => exact guard.2.elim
    | effect j m split => simp [hs] at split
    | fail j err split => simp [hs] at split
    | deliver j m split => simp [hs] at split

/-- A job in flight has to make a move: the operation completes from what is left after
it. -/
theorem first (h : Completes P may s ls s') (hs : s.jobs ≠ []) :
    ∃ js₁ j js₂ s₁ js ls', s.jobs = js₁ ++ j :: js₂ ∧
      Advance P may s.store s.locals j s₁.store s₁.locals js ∧
      (s₁.jobs = js₁ ++ js ++ js₂ ∨ s₁.jobs = js₁ ++ js₂ ++ js) ∧
      Completes P may s₁ ls' s' := by
  obtain ⟨hrun, hs'⟩ := h
  cases hrun with
  | nil => exact absurd hs' hs
  | cons guard move rest =>
    obtain ⟨js₁, j, js₂, js, split, hadvance, hjobs⟩ := (step_iff P |>.mp move).advance guard
    exact ⟨js₁, j, js₂, _, js, _, split, hadvance, hjobs, rest, hs'⟩

theorem only {j : Job Client Request Err Answer} (h : Completes P may s ls s')
    (hs : s.jobs = [j]) : ∃ st locals js ls', Advance P may s.store s.locals j st locals js ∧
      Completes P may ⟨st, locals, js⟩ ls' s' := by
  obtain ⟨js₁, j', js₂, ⟨st, locals, jobs⟩, js, ls', split, hadvance, hjobs, rest⟩ :=
    h.first (by simp [hs])
  rw [hs] at split
  cases js₁ with
  | nil =>
    obtain ⟨rfl, rfl⟩ := List.cons.inj split
    obtain rfl : jobs = js := by simpa using hjobs
    exact ⟨st, locals, jobs, ls', hadvance, rest⟩
  | cons _ _ => simp at split

section

variable {st : Store} {locals : Client → Local} {c : Client} {d : Local} {r : Request}

/-- **An operation that has made one call**: the call is answered, and the client goes on
with the reply. -/
theorem call (h : Completes P may (running st locals c (d, [r])) ls s') : P.live d = true ∧
    ∃ reply st' m ls', Called P may r st reply st' ∧
      Completes P may (running st' locals c (P.resume r m reply d)) ls' s' := by
  obtain ⟨st₁, locals₁, js₁, ls₁, hanswered, h₁⟩ := h.only rfl
  cases hanswered with
  | @call _ _ reply _ hcall =>
    obtain ⟨st₂, locals₂, js₂, ls₂, hdelivered, h₂⟩ := h₁.only rfl
    cases hdelivered with
    | deliver m live =>
      simp only [running, Function.update_self, Function.update_idem] at live h₂
      exact ⟨live, reply, st₁, m, ls₂, hcall, h₂⟩

theorem done (h : Completes P may (running st locals c (d, [])) ls s') :
    s' = running st locals c (d, []) := h.of_jobs_nil rfl

end

end Completes

/-! ### Two strands -/

section

variable {st st' : Store} {locals locals' : Client → Local} {c : Client} {d : Local} {r : Request}
  {js : List (Job Client Request Err Answer)}

theorem Advance.of_call (h : Advance P may st locals ⟨c, r, none⟩ st' locals' js) :
    ∃ reply, Called P may r st reply st' ∧ locals' = locals ∧ js = [⟨c, r, some reply⟩] := by
  cases h with
  | call hcall => exact ⟨_, hcall, rfl, rfl⟩

theorem Advance.of_deliver {reply : Except Err (Answer r)}
    (h : Advance P may st (Function.update locals c d) ⟨c, r, some reply⟩ st' locals' js) :
    ∃ m, P.live d = true ∧ st' = st ∧ locals' = Function.update locals c (P.resume r m reply d).1 ∧
      js = (P.resume r m reply d).2.map (Job.issue c) := by
  cases h with
  | deliver m live =>
    rw [Function.update_self] at live
    exact ⟨m, live, rfl, by rw [Function.update_self, Function.update_idem], by rw [Function.update_self]⟩

end

theorem perm_pick {α : Type} {xs ys js₁ js₂ : List α} {j : α}
    (h : (js₁ ++ j :: js₂).Perm (xs ++ ys)) :
    (∃ xs', xs.Perm (j :: xs') ∧ (js₁ ++ js₂).Perm (xs' ++ ys)) ∨
      ∃ ys', ys.Perm (j :: ys') ∧ (js₁ ++ js₂).Perm (xs ++ ys') := by
  have hmid := List.perm_middle.symm.trans h
  have hj : j ∈ xs ++ ys := hmid.subset List.mem_cons_self
  rcases List.mem_append.mp hj with hj | hj
  · obtain ⟨l₁, l₂, rfl⟩ := List.append_of_mem hj
    refine Or.inl ⟨l₁ ++ l₂, List.perm_middle, (hmid.trans ?_).cons_inv⟩
    rw [List.append_assoc, List.append_assoc, List.cons_append]
    exact List.perm_middle
  · obtain ⟨l₁, l₂, rfl⟩ := List.append_of_mem hj
    refine Or.inr ⟨l₁ ++ l₂, List.perm_middle, (hmid.trans ?_).cons_inv⟩
    rw [← List.append_assoc, ← List.append_assoc]
    exact List.perm_middle

theorem perm_pick₃ {α : Type} {xs ys zs js₁ js₂ : List α} {j : α}
    (h : (js₁ ++ j :: js₂).Perm (xs ++ (ys ++ zs))) :
    (∃ xs', xs.Perm (j :: xs') ∧ (js₁ ++ js₂).Perm (xs' ++ (ys ++ zs))) ∨
      (∃ ys', ys.Perm (j :: ys') ∧ (js₁ ++ js₂).Perm (xs ++ (ys' ++ zs))) ∨
      ∃ zs', zs.Perm (j :: zs') ∧ (js₁ ++ js₂).Perm (xs ++ (ys ++ zs')) := by
  rcases perm_pick h with hxs | ⟨ws, hws, hrest⟩
  · exact Or.inl hxs
  · have hsplit : ([] ++ j :: ws).Perm (ys ++ zs) := hws.symm
    rcases perm_pick hsplit with ⟨ys', hys, hws'⟩ | ⟨zs', hzs, hws'⟩
    · exact Or.inr (Or.inl ⟨ys', hys, hrest.trans (hws'.append_left _)⟩)
    · exact Or.inr (Or.inr ⟨zs', hzs, hrest.trans (hws'.append_left _)⟩)

theorem eq_of_perm_cons {α : Type} {x : Option α} {xs : List α} {j : α}
    (h : x.toList.Perm (j :: xs)) : x = some j ∧ xs = [] := by
  cases x with
  | none => exact absurd h.symm (List.cons_ne_nil j xs ∘ List.perm_nil.mp)
  | some y =>
    obtain ⟨rfl, rfl⟩ := List.cons.inj (List.perm_singleton.mp h.symm)
    exact ⟨rfl, rfl⟩

theorem perm_split {α : Type} {x y : Option α} {js₁ js₂ : List α} {j : α}
    (h : (js₁ ++ j :: js₂).Perm (x.toList ++ y.toList)) :
    x = some j ∧ (js₁ ++ js₂).Perm y.toList ∨ y = some j ∧ (js₁ ++ js₂).Perm x.toList := by
  rcases perm_pick h with ⟨xs, hxs, hrest⟩ | ⟨ys, hys, hrest⟩
  · obtain ⟨rfl, rfl⟩ := eq_of_perm_cons hxs
    exact Or.inl ⟨rfl, hrest⟩
  · obtain ⟨rfl, rfl⟩ := eq_of_perm_cons hys
    rw [List.append_nil] at hrest
    exact Or.inr ⟨rfl, hrest⟩

namespace Completes

/-- **The rule for two strands.**  An invariant of the store, the clients and the job in
which each strand is, kept by the moves of either, holds when both have come to their end. -/
theorem strands {I : Store → (Client → Local) → Option (Job Client Request Err Answer) →
      Option (Job Client Request Err Answer) → Prop}
    (hfirst : ∀ st locals j y st' locals' js, I st locals (some j) y →
      Advance P may st locals j st' locals' js → ∃ x, js = x.toList ∧ I st' locals' x y)
    (hsecond : ∀ st locals x j st' locals' js, I st locals x (some j) →
      Advance P may st locals j st' locals' js → ∃ y, js = y.toList ∧ I st' locals' x y)
    (h : Completes P may s ls s') : ∀ {x y : Option (Job Client Request Err Answer)},
    s.jobs.Perm (x.toList ++ y.toList) → I s.store s.locals x y → I s'.store s'.locals none none := by
  obtain ⟨hrun, hs'⟩ := h
  induction hrun with
  | nil =>
    intro x y hjobs hI
    rw [hs', List.nil_perm, List.append_eq_nil_iff] at hjobs
    rw [Option.toList_eq_nil_iff.mp hjobs.1, Option.toList_eq_nil_iff.mp hjobs.2] at hI
    exact hI
  | @cons s s₁ s₂ ℓ ls guard move _ ih =>
    intro x y hjobs hI
    obtain ⟨js₁, j, js₂, js, split, hadvance, hafter⟩ := (step_iff P |>.mp move).advance guard
    have hrest : s₁.jobs.Perm (js ++ (js₁ ++ js₂)) := by
      rcases hafter with hafter | hafter
      · rw [hafter, List.append_assoc]
        exact List.perm_append_comm_assoc ..
      · rw [hafter]
        exact List.perm_append_comm
    rw [split] at hjobs
    rcases perm_split hjobs with ⟨rfl, hothers⟩ | ⟨rfl, hothers⟩
    · obtain ⟨x', rfl, hI'⟩ := hfirst _ _ _ _ _ _ _ hI hadvance
      exact ih hs' (hrest.trans (hothers.append_left _)) hI'
    · obtain ⟨y', rfl, hI'⟩ := hsecond _ _ _ _ _ _ _ hI hadvance
      exact ih hs' (hrest.trans ((hothers.append_left _).trans List.perm_append_comm)) hI'

/-- **The rule for one call among others.**  An invariant of the job of the call, while there is
one, and of the jobs beside it, in whatever order, that is kept by the moves of either. -/
theorem watched {I : Option (Job Client Request Err Answer) → Store → (Client → Local) →
      List (Job Client Request Err Answer) → Prop}
    (hperm : ∀ x st locals js js', js.Perm js' → I x st locals js → I x st locals js')
    (hcall : ∀ st locals j js st' locals' new, I (some j) st locals js →
      Advance P may st locals j st' locals' new →
      ∃ x new', new = x.toList ++ new' ∧ I x st' locals' (new' ++ js))
    (hothers : ∀ x st locals j js st' locals' new, I x st locals (j :: js) →
      Advance P may st locals j st' locals' new → I x st' locals' (new ++ js))
    (h : Completes P may s ls s') : ∀ {x : Option (Job Client Request Err Answer)}
      {js : List (Job Client Request Err Answer)}, s.jobs.Perm (x.toList ++ js) →
    I x s.store s.locals js → I none s'.store s'.locals [] := by
  obtain ⟨hrun, hs'⟩ := h
  induction hrun with
  | nil =>
    intro x js hjobs hI
    rw [hs', List.nil_perm, List.append_eq_nil_iff] at hjobs
    rw [Option.toList_eq_nil_iff.mp hjobs.1, hjobs.2] at hI
    exact hI
  | @cons s s₁ s₂ ℓ ls guard move _ ih =>
    intro x js hjobs hI
    obtain ⟨js₁, j, js₂, new, split, hadvance, hafter⟩ := (step_iff P |>.mp move).advance guard
    have hrest : s₁.jobs.Perm (new ++ (js₁ ++ js₂)) := by
      rcases hafter with hafter | hafter
      · rw [hafter, List.append_assoc]
        exact List.perm_append_comm_assoc ..
      · rw [hafter]
        exact List.perm_append_comm
    rw [split] at hjobs
    rcases perm_pick hjobs with ⟨xs, hxs, hleft⟩ | ⟨js', hjs, hleft⟩
    · obtain ⟨rfl, rfl⟩ := eq_of_perm_cons hxs
      obtain ⟨x', new', rfl, hI'⟩ := hcall _ _ _ _ _ _ _ hI hadvance
      refine ih hs' (hrest.trans ?_) hI'
      rw [List.append_assoc]
      exact (hleft.append_left _).append_left _
    · refine ih hs' (hrest.trans ?_) (hothers _ _ _ _ _ _ _ _ (hperm _ _ _ _ _ hjs hI) hadvance)
      exact (hleft.append_left _).trans (List.perm_append_comm_assoc ..)

end Completes

end Async

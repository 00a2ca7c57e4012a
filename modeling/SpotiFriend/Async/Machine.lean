import Mathlib.Data.List.Basic
import Mathlib.Logic.Function.Basic

/-!
# Clients that talk to a store by asynchronous requests

A client handles an event in one go and leaves some requests behind.  A request
first takes effect on the shared store, at a moment the client does not choose,
and its reply is delivered to the client later still, again at a moment of its
own; handling the reply may leave further requests.  `System` is such a program,
`State` is the store, the clients and the requests in flight, and `step` makes
one move:

* `event c e`: client `c` handles the event `e`;
* `effect i m`: request `i` takes effect at the moment `m`, and has its reply;
* `fail i err`: request `i` fails, and the store stays as it is;
* `deliver i m`: the reply of request `i` reaches its client at the moment `m`.

No order is imposed between requests in flight: the effects and the deliveries of
different requests interleave freely.  A moment is whatever the services or the
client read from outside at that move, such as a clock.

`step_iff` says once what each move does, with the list of jobs split around the
job that moves.
-/

namespace Async

variable {Client Request Err Local Store Event Moment : Type} {Answer : Request → Type}

/-- A request in flight: it has no reply until it takes effect or fails. -/
structure Job (Client Request Err : Type) (Answer : Request → Type) where
  client : Client
  request : Request
  reply : Option (Except Err (Answer request))

namespace Job

def issue (c : Client) (r : Request) : Job Client Request Err Answer := ⟨c, r, none⟩

def answer (j : Job Client Request Err Answer) (a : Except Err (Answer j.request)) :
    Job Client Request Err Answer := ⟨j.client, j.request, some a⟩

@[simp] theorem issue_client (c : Client) (r : Request) :
    (issue c r : Job Client Request Err Answer).client = c := rfl

@[simp] theorem issue_request (c : Client) (r : Request) :
    (issue c r : Job Client Request Err Answer).request = r := rfl

@[simp] theorem issue_reply (c : Client) (r : Request) :
    (issue c r : Job Client Request Err Answer).reply = none := rfl

@[simp] theorem answer_client (j : Job Client Request Err Answer) (a) :
    (j.answer a).client = j.client := rfl

@[simp] theorem answer_request (j : Job Client Request Err Answer) (a) :
    (j.answer a).request = j.request := rfl

theorem eq_of_reply {j : Job Client Request Err Answer}
    {a : Option (Except Err (Answer j.request))} (h : j.reply = a) :
    j = ⟨j.client, j.request, a⟩ := by
  subst h
  rfl

@[simp] theorem answer_reply (j : Job Client Request Err Answer) (a) :
    (j.answer a).reply = some a := rfl

end Job

/-- What the services do with a request, and what a client does with an event and
with a reply.  A client that is not `live` makes no move any more. -/
structure System (Request Err Local Store Event Moment : Type) (Answer : Request → Type) where
  exec : (r : Request) → Moment → Store → Store × Except Err (Answer r)
  start : Event → Local → Local × List Request
  resume : (r : Request) → Moment → Except Err (Answer r) → Local → Local × List Request
  live : Local → Bool

/-- The store, the clients and the jobs in flight. -/
structure State (Client Request Err Local Store : Type) (Answer : Request → Type) where
  store : Store
  locals : Client → Local
  jobs : List (Job Client Request Err Answer)

/-- One move. -/
inductive Label (Client Err Event Moment : Type) where
  | event (c : Client) (e : Event)
  | effect (i : ℕ) (m : Moment)
  | fail (i : ℕ) (err : Err)
  | deliver (i : ℕ) (m : Moment)

variable (P : System Request Err Local Store Event Moment Answer)

namespace State

/-- The services do `st` and the jobs become `jobs`. -/
def settle (s : State Client Request Err Local Store Answer) (st : Store)
    (jobs : List (Job Client Request Err Answer)) :
    State Client Request Err Local Store Answer where
  store := st
  locals := s.locals
  jobs := jobs

section

variable (s : State Client Request Err Local Store Answer)
  (jobs : List (Job Client Request Err Answer)) (st : Store)

@[simp] theorem settle_store : (s.settle st jobs).store = st := rfl

@[simp] theorem settle_locals : (s.settle st jobs).locals = s.locals := rfl

@[simp] theorem settle_jobs : (s.settle st jobs).jobs = jobs := rfl

end

variable [DecidableEq Client]

/-- Client `c` continues with the local state `p.1` and leaves the requests `p.2`. -/
def proceed (s : State Client Request Err Local Store Answer) (c : Client)
    (jobs : List (Job Client Request Err Answer)) (p : Local × List Request) :
    State Client Request Err Local Store Answer where
  store := s.store
  locals := Function.update s.locals c p.1
  jobs := jobs ++ p.2.map (Job.issue c)

variable (s : State Client Request Err Local Store Answer) (c : Client)
  (jobs : List (Job Client Request Err Answer)) (p : Local × List Request)

@[simp] theorem proceed_store : (s.proceed c jobs p).store = s.store := rfl

@[simp] theorem proceed_locals :
    (s.proceed c jobs p).locals = Function.update s.locals c p.1 := rfl

@[simp] theorem proceed_jobs : (s.proceed c jobs p).jobs = jobs ++ p.2.map (Job.issue c) := rfl

end State

variable [DecidableEq Client]

/-- The move `ℓ`, where it is possible. -/
def step (s : State Client Request Err Local Store Answer) :
    Label Client Err Event Moment → Option (State Client Request Err Local Store Answer)
  | .event c e =>
    if P.live (s.locals c) then some (s.proceed c s.jobs (P.start e (s.locals c))) else none
  | .effect i m =>
    match s.jobs[i]? with
    | some ⟨c, r, none⟩ =>
      some (s.settle (P.exec r m s.store).1 (s.jobs.set i ⟨c, r, some (P.exec r m s.store).2⟩))
    | _ => none
  | .fail i err =>
    match s.jobs[i]? with
    | some ⟨c, r, none⟩ => some (s.settle s.store (s.jobs.set i ⟨c, r, some (.error err)⟩))
    | _ => none
  | .deliver i m =>
    match s.jobs[i]? with
    | some ⟨c, r, some a⟩ =>
      if P.live (s.locals c) then
        some (s.proceed c (s.jobs.eraseIdx i) (P.resume r m a (s.locals c)))
      else none
    | _ => none

/-- What a move does, with the jobs split around the job that moves. -/
inductive Step (s : State Client Request Err Local Store Answer) :
    Label Client Err Event Moment → State Client Request Err Local Store Answer → Prop
  | event (c : Client) (e : Event) (live : P.live (s.locals c) = true) :
      Step s (.event c e) (s.proceed c s.jobs (P.start e (s.locals c)))
  | effect {js₁ js₂ : List (Job Client Request Err Answer)} (j : Job Client Request Err Answer)
      (m : Moment) (split : s.jobs = js₁ ++ j :: js₂) (waiting : j.reply = none) :
      Step s (.effect js₁.length m) (s.settle (P.exec j.request m s.store).1
        (js₁ ++ j.answer (P.exec j.request m s.store).2 :: js₂))
  | fail {js₁ js₂ : List (Job Client Request Err Answer)} (j : Job Client Request Err Answer)
      (err : Err) (split : s.jobs = js₁ ++ j :: js₂) (waiting : j.reply = none) :
      Step s (.fail js₁.length err) (s.settle s.store (js₁ ++ j.answer (.error err) :: js₂))
  | deliver {js₁ js₂ : List (Job Client Request Err Answer)} (j : Job Client Request Err Answer)
      (m : Moment) {a : Except Err (Answer j.request)} (split : s.jobs = js₁ ++ j :: js₂)
      (answered : j.reply = some a) (live : P.live (s.locals j.client) = true) :
      Step s (.deliver js₁.length m)
        (s.proceed j.client (js₁ ++ js₂) (P.resume j.request m a (s.locals j.client)))

theorem split_of_getElem? {α : Type} : ∀ {l : List α} {i : ℕ} {x : α}, l[i]? = some x →
    ∃ l₁ l₂, l = l₁ ++ x :: l₂ ∧ l₁.length = i := by
  intro l i x h
  obtain ⟨hi, rfl⟩ := List.getElem?_eq_some_iff.mp h
  refine ⟨l.take i, l.drop (i + 1), ?_, ?_⟩
  · rw [List.getElem_cons_drop, List.take_append_drop]
  · rw [List.length_take]
    omega

/-- **The moves, one by one.**  `step` makes exactly the moves that `Step` lists. -/
theorem step_iff {s s' : State Client Request Err Local Store Answer}
    {ℓ : Label Client Err Event Moment} : step P s ℓ = some s' ↔ Step P s ℓ s' := by
  constructor
  · intro h
    cases ℓ with
    | event c e =>
      rw [step] at h
      split at h
      · next live =>
        cases h
        exact .event c e live
      · cases h
    | effect i m =>
      rw [step] at h
      split at h
      · next c r hj =>
        cases h
        obtain ⟨js₁, js₂, hsplit, rfl⟩ := split_of_getElem? hj
        have := Step.effect (P := P) ⟨c, r, none⟩ m hsplit rfl
        rw [hsplit, List.set_append_right _ _ (Nat.le_refl _), Nat.sub_self, List.set_cons_zero]
        exact this
      · cases h
    | fail i err =>
      rw [step] at h
      split at h
      · next c r hj =>
        cases h
        obtain ⟨js₁, js₂, hsplit, rfl⟩ := split_of_getElem? hj
        have := Step.fail (P := P) ⟨c, r, none⟩ err hsplit rfl
        rw [hsplit, List.set_append_right _ _ (Nat.le_refl _), Nat.sub_self, List.set_cons_zero]
        exact this
      · cases h
    | deliver i m =>
      rw [step] at h
      split at h
      · next c r a hj =>
        split at h
        · next live =>
          cases h
          obtain ⟨js₁, js₂, hsplit, rfl⟩ := split_of_getElem? hj
          have := Step.deliver (P := P) ⟨c, r, some a⟩ m hsplit rfl live
          rw [hsplit, List.eraseIdx_append_of_length_le (Nat.le_refl _), Nat.sub_self,
            List.eraseIdx_cons_zero]
          exact this
        · cases h
      · cases h
  · intro h
    cases h with
    | event c e live => rw [step, if_pos live]
    | effect j m split waiting =>
      rw [Job.eq_of_reply waiting] at split
      simp [step, split, Job.answer]
    | fail j err split waiting =>
      rw [Job.eq_of_reply waiting] at split
      simp [step, split, Job.answer]
    | deliver j m split answered live =>
      rw [Job.eq_of_reply answered] at split
      simp [step, split, live, List.eraseIdx_append_of_length_le]

end Async

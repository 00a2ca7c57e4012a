import SpotiFriend.Async.Settling
import SpotiFriend.Spec.Calls

/-!
# Callbacks come to an end

Every event sets off chains of calls: a tap asks for the playlists, writes to one, looks up
the user and writes the counter.  The graph of the calls has no cycle, `rank` counts the
calls that may follow, and a result leaves finitely many of them however many documents it
has.

Main results, for any number of devices and whatever is in flight:

* `replies_end`: without further events no run goes on for ever;
* `comes_to_rest`: it ends with nothing pending, except for devices that have crashed.
-/

namespace SpotiFriend

open Async

/-- The length of the longest chain of calls that may follow. -/
def Request.rank : Request → ℕ
  | .checkPlaylists _ _ => 3
  | .putPicture _ => 3
  | .storeHasFound _ _ _ _ => 2
  | .updateEmail _ _ _ _ => 2
  | .updatePassword _ _ _ => 2
  | .pictureURL _ => 2
  | .addUserAnnotations _ => 1
  | .viewForPlaylist _ _ => 1
  | .foundUserInfo _ => 1
  | .createdUserInfo _ _ => 1
  | .emailUserInfo _ _ => 1
  | .passwordUserInfo _ _ => 1
  | .usernameUserInfo _ _ => 1
  | .createUser _ _ _ => 1
  | .radiusUserInfo _ _ => 1
  | .deletedUserInfo _ => 1
  | .pictureUserInfo _ _ => 1
  | _ => 0

theorem Leads.rank_lt {r r' : Request} (h : Leads r r') : r'.rank < r.rank := by
  cases r with
  | addUserAnnotations map =>
    obtain ⟨id, rfl⟩ := h
    exact Nat.lt_succ_self _
  | viewForPlaylist pin p =>
    obtain ⟨email, rfl⟩ := h
    exact Nat.lt_succ_self _
  | checkPlaylists coll p =>
    obtain ⟨id, l, email, rfl⟩ := h
    exact Nat.lt_succ_self _
  | storeHasFound coll id l email =>
    obtain rfl : r' = .foundUserInfo email := h
    exact Nat.lt_succ_self _
  | foundUserInfo email =>
    obtain ⟨id, n, rfl⟩ := h
    exact Nat.lt_succ_self _
  | createdUserInfo email n =>
    obtain ⟨id, rfl⟩ := h
    exact Nat.lt_succ_self _
  | updateEmail vc uid email oldEmail =>
    obtain rfl : r' = .emailUserInfo vc oldEmail := h
    exact Nat.lt_succ_self _
  | emailUserInfo vc oldEmail =>
    obtain ⟨id, email, rfl⟩ := h
    exact Nat.lt_succ_self _
  | updatePassword vc uid password =>
    obtain ⟨email, rfl⟩ := h
    exact Nat.lt_succ_self _
  | passwordUserInfo vc email =>
    obtain ⟨id, password, rfl⟩ := h
    exact Nat.lt_succ_self _
  | usernameUserInfo vc email =>
    obtain ⟨id, username, rfl⟩ := h
    exact Nat.lt_succ_self _
  | createUser vc email password =>
    obtain ⟨username, email', password', rfl⟩ := h
    exact Nat.lt_succ_self _
  | radiusUserInfo vc email =>
    obtain ⟨id, mapRadius, rfl⟩ := h
    exact Nat.lt_succ_self _
  | deletedUserInfo email =>
    obtain ⟨id, rfl⟩ := h
    exact Nat.lt_succ_self _
  | putPicture name =>
    obtain rfl : r' = .pictureURL name := h
    exact Nat.lt_succ_self _
  | pictureURL name =>
    rcases h with ⟨name', rfl⟩ | ⟨email, imgURL, rfl⟩
    · exact Nat.zero_lt_succ _
    · exact Nat.lt_succ_self _
  | pictureUserInfo email imgURL =>
    obtain ⟨id, rfl⟩ := h
    exact Nat.lt_succ_self _
  | _ => cases h

variable {P : Platform} {s : State}

theorem app_descends (P : Platform) : Descends (app P) Request.rank :=
  fun r m reply d r' hr' => (resume_leads P r m reply d r' hr').rank_lt

/-- **Replies come to an end**: no run without events goes on for ever, whatever is in flight,
in whatever order the calls take effect, fail and are delivered. -/
theorem replies_end (P : Platform) (t : ℕ → State) (ℓ : ℕ → Label) :
    ¬ ∀ n, ofJob (ℓ n) = true ∧ step (app P) (t n) (ℓ n) = some (t (n + 1)) := by
  intro hmoves
  have hwf : WellFounded (fun s' s : State => ∃ ℓ : Label, ofJob ℓ = true ∧ Step (app P) s ℓ s') :=
    wellFounded_settling (app_descends P)
  -- no state lies on the run, by induction along the moves
  have hnever : ∀ s n, t n ≠ s := by
    intro s
    induction s using hwf.induction with
    | _ s ih =>
      rintro n rfl
      obtain ⟨hℓ, move⟩ := hmoves n
      exact ih (t (n + 1)) ⟨ℓ n, hℓ, (step_iff (app P)).mp move⟩ (n + 1) rfl
  exact hnever (t 0) 0 rfl

/-- Every callback that is still pending is one of a device that has crashed. -/
def Resting (s : State) : Prop := ∀ j ∈ s.jobs, (s.locals j.client).crashed = true

theorem resting_of_atRest (h : AtRest (app P) s) : Resting s := by
  intro j hj
  simpa using (h j hj).2

/-- **The app comes to rest**: from every state replies alone, without a failure, lead to a
state in which nothing is pending but for crashed devices, and no run of replies, with or
without failures, can get stuck anywhere else. -/
theorem comes_to_rest (P : Platform) (s : State) :
    (∃ ls s', Run (app P) (fun _ ℓ => succeeds ℓ = true) s ls s' ∧ Resting s') ∧
    ∀ ls s', Run (app P) (fun _ ℓ => ofJob ℓ = true) s ls s' →
      (∀ ℓ, ofJob ℓ = true → step (app P) s' ℓ = none) → Resting s' := by
  constructor
  · obtain ⟨ls, s', hrun, hrest⟩ := exists_atRest (app_descends P) s
    exact ⟨ls, s', hrun, resting_of_atRest hrest⟩
  · intro ls s' _ hstuck
    by_contra hrest
    obtain ⟨ℓ, s'', hℓ, move⟩ := exists_step (fun h => hrest (resting_of_atRest h))
    have hnone := hstuck ℓ (ofJob_of_succeeds hℓ)
    rw [(step_iff (app P)).mpr move] at hnone
    cases hnone

end SpotiFriend

import SpotiFriend.Async.Machine

/-!
# The jobs in flight

Rules by which a property of the jobs in flight is kept by a move, with one
obligation for each kind of move.

* `Step.jobs`: a property that each job has by itself, together with the store.
  When a request takes effect, the jobs around it have to keep the property in the
  new store.
* `Step.pairwise`: a property of any two jobs, such as that they do not write to
  the same place.
* `Step.jobs_apart`, `Step.jobs_pairwise`: the two together, where a job keeps its own
  property when the job that takes effect is related to it.  `Leaves` is what the requests
  that a client leaves have to satisfy.

`Step.requests` is the first rule for what does not depend on the store or the reply.
-/

namespace Async

variable {Client Request Err Local Store Event Moment : Type} {Answer : Request → Type}
  [DecidableEq Client] {P : System Request Err Local Store Event Moment Answer}
  {s s' : State Client Request Err Local Store Answer} {ℓ : Label Client Err Event Moment}

omit [DecidableEq Client] in
theorem getElem?_split {j : Job Client Request Err Answer}
    {js₁ js₂ : List (Job Client Request Err Answer)} (split : s.jobs = js₁ ++ j :: js₂) :
    s.jobs[js₁.length]? = some j := by
  rw [split, List.getElem?_append_right (Nat.le_refl _), Nat.sub_self]
  rfl

omit [DecidableEq Client] in
theorem rest_sublist {j : Job Client Request Err Answer}
    {js₁ js₂ : List (Job Client Request Err Answer)} (split : s.jobs = js₁ ++ j :: js₂) :
    (js₁ ++ js₂).Sublist s.jobs := by
  rw [split]
  exact List.Sublist.append (List.Sublist.refl _) (List.sublist_cons_self _ _)

omit [DecidableEq Client] in
theorem mem_of_split {j : Job Client Request Err Answer}
    {js₁ js₂ : List (Job Client Request Err Answer)} (split : s.jobs = js₁ ++ j :: js₂) :
    j ∈ s.jobs := by
  rw [split]
  exact List.mem_append_cons_self

omit [DecidableEq Client] in
theorem mem_of_settled {j x j' : Job Client Request Err Answer}
    {js₁ js₂ : List (Job Client Request Err Answer)} (split : s.jobs = js₁ ++ j :: js₂)
    (h : j' ∈ js₁ ++ x :: js₂) : j' = x ∨ j' ∈ s.jobs := by
  rcases List.mem_append.mp h with h | h
  · exact .inr ((rest_sublist split).subset (List.mem_append_left _ h))
  · rcases List.mem_cons.mp h with rfl | h
    · exact .inl rfl
    · exact .inr ((rest_sublist split).subset (List.mem_append_right _ h))

/-- **Each job by itself.** -/
theorem Step.jobs {φ : Store → Job Client Request Err Answer → Prop} (h : Step P s ℓ s')
    (hold : ∀ j ∈ s.jobs, φ s.store j)
    (hstart : ∀ c e, ℓ = .event c e → P.live (s.locals c) = true →
      ∀ r ∈ (P.start e (s.locals c)).2, φ s.store (.issue c r))
    (heffect : ∀ js₁ j js₂ m, ℓ = .effect js₁.length m → s.jobs = js₁ ++ j :: js₂ →
      j.reply = none →
      φ (P.exec j.request m s.store).1 (j.answer (P.exec j.request m s.store).2) ∧
      ∀ j' ∈ js₁ ++ js₂, φ (P.exec j.request m s.store).1 j')
    (hfail : ∀ js₁ j js₂ err, ℓ = .fail js₁.length err → s.jobs = js₁ ++ j :: js₂ →
      j.reply = none → φ s.store (j.answer (.error err)))
    (hdeliver : ∀ js₁ j js₂ m a, ℓ = .deliver js₁.length m → s.jobs = js₁ ++ j :: js₂ →
      j.reply = some a → P.live (s.locals j.client) = true →
      ∀ r ∈ (P.resume j.request m a (s.locals j.client)).2, φ s.store (.issue j.client r)) :
    ∀ j ∈ s'.jobs, φ s'.store j := by
  intro j' hj'
  cases h with
  | event c e live =>
    rw [State.proceed_jobs, List.mem_append, List.mem_map] at hj'
    rcases hj' with hj' | ⟨r, hr, rfl⟩
    · exact hold j' hj'
    · exact hstart c e rfl live r hr
  | @effect js₁ js₂ j m split waiting =>
    obtain ⟨hself, hothers⟩ := heffect js₁ j js₂ m rfl split waiting
    rw [State.settle_jobs, List.mem_append, List.mem_cons] at hj'
    rcases hj' with hj' | rfl | hj'
    · exact hothers j' (List.mem_append_left _ hj')
    · exact hself
    · exact hothers j' (List.mem_append_right _ hj')
  | @fail js₁ js₂ j err split waiting =>
    rw [State.settle_jobs, List.mem_append, List.mem_cons] at hj'
    rcases hj' with hj' | rfl | hj'
    · exact hold j' (by rw [split]; exact List.mem_append_left _ hj')
    · exact hfail js₁ j js₂ err rfl split waiting
    · exact hold j' (by rw [split]; exact List.mem_append_right _ (List.mem_cons_of_mem _ hj'))
  | @deliver js₁ js₂ j m a split answered live =>
    rw [State.proceed_jobs, List.mem_append, List.mem_map] at hj'
    rcases hj' with hj' | ⟨r, hr, rfl⟩
    · exact hold j' ((rest_sublist split).subset hj')
    · exact hdeliver js₁ j js₂ m a rfl split answered live r hr

/-- **Any two jobs.** -/
theorem Step.pairwise {R : Job Client Request Err Answer → Job Client Request Err Answer → Prop}
    (h : Step P s ℓ s') (hold : s.jobs.Pairwise R)
    (hstart : ∀ c e, ℓ = .event c e → P.live (s.locals c) = true →
      (((P.start e (s.locals c)).2).map (Job.issue c)).Pairwise R ∧
      ∀ j ∈ s.jobs, ∀ r ∈ (P.start e (s.locals c)).2, R j (.issue c r))
    (hanswer : ∀ j j' a, j.reply = none → (R j j' → R (j.answer a) j') ∧ (R j' j → R j' (j.answer a)))
    (hdeliver : ∀ js₁ j js₂ m a, ℓ = .deliver js₁.length m → s.jobs = js₁ ++ j :: js₂ →
      j.reply = some a → P.live (s.locals j.client) = true →
      (((P.resume j.request m a (s.locals j.client)).2).map (Job.issue j.client)).Pairwise R ∧
      ∀ j' ∈ js₁ ++ js₂, ∀ r ∈ (P.resume j.request m a (s.locals j.client)).2,
        R j' (.issue j.client r)) :
    s'.jobs.Pairwise R := by
  -- a reply changes one job in the middle
  have hset : ∀ {js₁ js₂} {j : Job Client Request Err Answer} {a}, s.jobs = js₁ ++ j :: js₂ →
      j.reply = none → (js₁ ++ j.answer a :: js₂).Pairwise R := by
    intro js₁ js₂ j a split waiting
    rw [split, List.pairwise_append, List.pairwise_cons] at hold
    obtain ⟨h₁, ⟨hj, h₂⟩, h₁₂⟩ := hold
    rw [List.pairwise_append, List.pairwise_cons]
    refine ⟨h₁, ⟨fun j' hj' => (hanswer j j' a waiting).1 (hj j' hj'), h₂⟩, ?_⟩
    intro j₁ hj₁ j₂ hj₂
    rcases List.mem_cons.mp hj₂ with rfl | hj₂
    · exact (hanswer j j₁ a waiting).2 (h₁₂ j₁ hj₁ j List.mem_cons_self)
    · exact h₁₂ j₁ hj₁ j₂ (List.mem_cons_of_mem _ hj₂)
  cases h with
  | event c e live =>
    obtain ⟨hnew, hcross⟩ := hstart c e rfl live
    rw [State.proceed_jobs, List.pairwise_append]
    refine ⟨hold, hnew, fun j hj j' hj' => ?_⟩
    obtain ⟨r, hr, rfl⟩ := List.mem_map.mp hj'
    exact hcross j hj r hr
  | effect j m split waiting => exact hset split waiting
  | fail j err split waiting => exact hset split waiting
  | @deliver js₁ js₂ j m a split answered live =>
    obtain ⟨hnew, hcross⟩ := hdeliver js₁ j js₂ m a rfl split answered live
    rw [State.proceed_jobs, List.pairwise_append]
    refine ⟨hold.sublist (rest_sublist split), hnew, fun j' hj' j'' hj'' => ?_⟩
    obtain ⟨r, hr, rfl⟩ := List.mem_map.mp hj''
    exact hcross j' hj' r hr

/-- A property of the requests alone. -/
theorem Step.requests {Q : Client → Request → Prop} (h : Step P s ℓ s')
    (hold : ∀ j ∈ s.jobs, Q j.client j.request)
    (hstart : ∀ c e, ℓ = .event c e → P.live (s.locals c) = true →
      ∀ r ∈ (P.start e (s.locals c)).2, Q c r)
    (hresume : ∀ js₁ j js₂ m a, ℓ = .deliver js₁.length m → s.jobs = js₁ ++ j :: js₂ →
      j.reply = some a → P.live (s.locals j.client) = true →
      ∀ r ∈ (P.resume j.request m a (s.locals j.client)).2, Q j.client r) :
    ∀ j ∈ s'.jobs, Q j.client j.request := by
  refine h.jobs (φ := fun _ j => Q j.client j.request) hold hstart ?_ ?_ hresume
  · intro js₁ j js₂ m _ split _
    exact ⟨hold j (mem_of_split split), fun j' hj' => hold j' ((rest_sublist split).subset hj')⟩
  · intro js₁ j js₂ err _ split _
    exact hold j (mem_of_split split)

/-- A move for the client `c` leaves the others as they are, and jobs of `c` alone. -/
theorem Step.others {c : Client} (h : Step P s ℓ s') (hℓ : ∀ c' e, ℓ = .event c' e → c' = c)
    (hjobs : ∀ j ∈ s.jobs, j.client = c) :
    (∀ c', c' ≠ c → s'.locals c' = s.locals c') ∧ ∀ j ∈ s'.jobs, j.client = c := by
  refine ⟨fun c' hc' => ?_, h.requests (Q := fun c' _ => c' = c) hjobs
    (fun c' e he _ _ _ => hℓ c' e he) (fun js₁ j js₂ m a _ split _ _ _ _ => hjobs j (mem_of_split split))⟩
  cases h with
  | event c₁ e live => exact Function.update_of_ne (fun he => hc' (he.trans (hℓ c₁ e rfl))) ..
  | effect j m split waiting => rfl
  | fail j err split waiting => rfl
  | deliver j m split answered live =>
    exact Function.update_of_ne (fun he => hc' (he.trans (hjobs j (mem_of_split split)))) ..

/-- Requests that client `c` may leave behind among the jobs: each has the property, any
two are related, and each is related to the jobs that are there. -/
structure Leaves (φ : Job Client Request Err Answer → Prop)
    (R : Job Client Request Err Answer → Job Client Request Err Answer → Prop)
    (jobs : List (Job Client Request Err Answer)) (c : Client) (rs : List Request) : Prop where
  each : ∀ r ∈ rs, φ (.issue c r)
  pairs : (rs.map (Job.issue c)).Pairwise R
  others : ∀ i ∈ jobs, ∀ r ∈ rs, R i (.issue c r)

section

variable {φ : Job Client Request Err Answer → Prop}
  {R : Job Client Request Err Answer → Job Client Request Err Answer → Prop}
  {jobs : List (Job Client Request Err Answer)} {c : Client}

omit [DecidableEq Client] in
theorem Leaves.nil : Leaves φ R jobs c [] := ⟨nofun, .nil, fun _ _ => nofun⟩

omit [DecidableEq Client] in
theorem Leaves.singleton {r : Request} (hφ : φ (.issue c r)) (hR : ∀ i ∈ jobs, R i (.issue c r)) :
    Leaves φ R jobs c [r] := by
  refine ⟨fun r' hr' => ?_, List.pairwise_singleton _ _, fun i hi r' hr' => ?_⟩
  · rw [List.mem_singleton.mp hr']
    exact hφ
  · rw [List.mem_singleton.mp hr']
    exact hR i hi

omit [DecidableEq Client] in
theorem Leaves.of_forall {rs : List Request} (hφ : ∀ r ∈ rs, φ (.issue c r))
    (hR : ∀ r ∈ rs, ∀ i, R i (.issue c r)) : Leaves φ R jobs c rs := by
  refine ⟨hφ, ?_, fun i _ r hr => hR r hr i⟩
  rw [List.pairwise_map]
  exact List.pairwise_of_forall_mem_list (fun r _ r' hr' => hR r' hr' (.issue c r))

end

/-- **Each job by itself, given that any two are related.** -/
theorem Step.jobs_apart {φ : Store → Job Client Request Err Answer → Prop}
    {R : Job Client Request Err Answer → Job Client Request Err Answer → Prop}
    (symm : ∀ {j j'}, R j j' → R j' j)
    (hanswer : ∀ {j j' a}, j.reply = none → R j j' → R (j.answer a) j')
    (h : Step P s ℓ s') (hold : ∀ j ∈ s.jobs, φ s.store j) (hpairs : s.jobs.Pairwise R)
    (hstart : ∀ c e, ℓ = .event c e → P.live (s.locals c) = true →
      Leaves (φ s.store) R s.jobs c (P.start e (s.locals c)).2)
    (heffect : ∀ i j m, ℓ = .effect i m → j ∈ s.jobs → j.reply = none →
      φ (P.exec j.request m s.store).1 (j.answer (P.exec j.request m s.store).2) ∧
      ∀ j' ∈ s.jobs, R j j' → φ (P.exec j.request m s.store).1 j')
    (hfail : ∀ i j err, ℓ = .fail i err → j ∈ s.jobs → j.reply = none →
      φ s.store (j.answer (.error err)))
    (hdeliver : ∀ js₁ j js₂ m a, ℓ = .deliver js₁.length m → s.jobs = js₁ ++ j :: js₂ →
      j.reply = some a → P.live (s.locals j.client) = true → (∀ i ∈ js₁ ++ js₂, R j i) →
      Leaves (φ s.store) R (js₁ ++ js₂) j.client (P.resume j.request m a (s.locals j.client)).2) :
    (∀ j ∈ s'.jobs, φ s'.store j) ∧ s'.jobs.Pairwise R := by
  have hrest : ∀ {js₁ j js₂}, s.jobs = js₁ ++ j :: js₂ → ∀ j' ∈ js₁ ++ js₂, R j j' := by
    intro js₁ j js₂ split
    rw [split, List.pairwise_middle symm] at hpairs
    exact (List.pairwise_cons.mp hpairs).1
  constructor
  · refine h.jobs hold (fun c e hℓ live => (hstart c e hℓ live).each) ?_ ?_ ?_
    · intro js₁ j js₂ m hℓ split waiting
      obtain ⟨hself, hothers⟩ := heffect _ j m hℓ (mem_of_split split) waiting
      exact ⟨hself, fun j' hj' =>
        hothers j' ((rest_sublist split).subset hj') (hrest split j' hj')⟩
    · intro js₁ j js₂ err hℓ split waiting
      exact hfail _ j err hℓ (mem_of_split split) waiting
    · intro js₁ j js₂ m a hℓ split answered live
      exact (hdeliver js₁ j js₂ m a hℓ split answered live (hrest split)).each
  · refine h.pairwise hpairs ?_ ?_ ?_
    · exact fun c e hℓ live => ⟨(hstart c e hℓ live).pairs, (hstart c e hℓ live).others⟩
    · exact fun j j' a waiting => ⟨hanswer waiting, fun hR => symm (hanswer waiting (symm hR))⟩
    · intro js₁ j js₂ m a hℓ split answered live
      have hnew := hdeliver js₁ j js₂ m a hℓ split answered live (hrest split)
      exact ⟨hnew.pairs, hnew.others⟩

/-- The same where a delivery leaves requests that are related to every job, the delivered
one included. -/
theorem Step.jobs_pairwise {φ : Store → Job Client Request Err Answer → Prop}
    {R : Job Client Request Err Answer → Job Client Request Err Answer → Prop}
    (symm : ∀ {j j'}, R j j' → R j' j)
    (hanswer : ∀ {j j' a}, j.reply = none → R j j' → R (j.answer a) j')
    (h : Step P s ℓ s') (hold : ∀ j ∈ s.jobs, φ s.store j) (hpairs : s.jobs.Pairwise R)
    (hstart : ∀ c e, ℓ = .event c e → P.live (s.locals c) = true →
      Leaves (φ s.store) R s.jobs c (P.start e (s.locals c)).2)
    (heffect : ∀ i j m, ℓ = .effect i m → j ∈ s.jobs → j.reply = none →
      φ (P.exec j.request m s.store).1 (j.answer (P.exec j.request m s.store).2) ∧
      ∀ j' ∈ s.jobs, R j j' → φ (P.exec j.request m s.store).1 j')
    (hfail : ∀ i j err, ℓ = .fail i err → j ∈ s.jobs → j.reply = none →
      φ s.store (j.answer (.error err)))
    (hdeliver : ∀ i j m a, ℓ = .deliver i m → s.jobs[i]? = some j → j.reply = some a →
      P.live (s.locals j.client) = true →
      Leaves (φ s.store) R s.jobs j.client (P.resume j.request m a (s.locals j.client)).2) :
    (∀ j ∈ s'.jobs, φ s'.store j) ∧ s'.jobs.Pairwise R := by
  refine h.jobs_apart symm hanswer hold hpairs hstart heffect hfail ?_
  intro js₁ j js₂ m a hℓ split answered live _
  have hnew := hdeliver _ j m a hℓ (getElem?_split split) answered live
  exact ⟨hnew.each, hnew.pairs, fun i hi => hnew.others i ((rest_sublist split).subset hi)⟩

end Async

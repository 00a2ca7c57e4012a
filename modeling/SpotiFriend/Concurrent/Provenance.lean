import SpotiFriend.Concurrent.HasFound
import SpotiFriend.Spec.Calls

/-!
# Who is in `hasFound`

The test for the user's email is made on the result of a query, which may be old when the
list is written back.  Still no list ever has an email twice, and each email in it came
from a device that had just been shown the playlist: `Sound` is that for one list, and
`Carries` hands it on to the lists in results and in writes on their way.

Main results, for all that the app can do, in any order:

* `step_sound`: a move keeps all lists sound;
* `hasFound_sound`: so does a run.
-/

namespace SpotiFriend

open Async MapVC

abbrev Tap := CollectionName × ℕ × String

/-- The playlists that a tap's query shows, with the email that the device has when it
handles the result. -/
def tapsOf (s : State) : Label → List Tap
  | .deliver i _ => match s.jobs[i]? with
    | some ⟨c, .checkPlaylists coll _, some (.ok docs)⟩ =>
      docs.map (fun doc => (coll, doc.id, (s.locals c).sharedUserInfo.email))
    | _ => []
  | _ => []

/-- Nobody is in the list twice, and whoever is in it was there in `b₀` or came by a tap. -/
structure Sound (b₀ : Backend) (taps : List Tap) (coll : CollectionName) (id : ℕ)
    (l : List String) : Prop where
  nodup : l.Nodup
  origin : ∀ email ∈ l, email ∈ b₀.hasFound coll id ∨ (coll, id, email) ∈ taps

def aboutLists : Request → Bool
  | .checkPlaylists _ _ => true
  | .storeHasFound _ _ _ _ => true
  | _ => false

/-- The lists that a job carries, in a result or in a write, have the property `Q`. -/
inductive Carries (Q : CollectionName → ℕ → List String → Prop) : Job → Prop
  | result (c : ℕ) (coll : CollectionName) (p : Coordinate) (reply : Option (Except String (List Doc)))
      (playlists : coll ≠ .userInfo)
      (shown : ∀ docs, reply = some (.ok docs) → ∀ doc ∈ docs, ∀ l,
        getStrings doc.data .hasFound = some l → Q coll doc.id l) :
      Carries Q ⟨c, .checkPlaylists coll p, reply⟩
  | write (c : ℕ) (coll : CollectionName) (id : ℕ) (l : List String) (email : String)
      (reply : Option (Except String Unit)) (playlists : coll ≠ .userInfo) (written : Q coll id l) :
      Carries Q ⟨c, .storeHasFound coll id l email, reply⟩
  | none (j : Job) (hnone : aboutLists j.request = false) : Carries Q j

/-- **Every list is sound**, in the playlists, in results and in writes on their way. -/
structure AllSound (b₀ : Backend) (taps : List Tap) (s : State) : Prop where
  stored : ∀ coll id, coll ≠ .userInfo → Sound b₀ taps coll id (s.store.hasFound coll id)
  carried : ∀ j ∈ s.jobs, Carries (Sound b₀ taps) j

variable {P : Platform} {s s' : State} {ℓ : Label} {b₀ : Backend} {taps taps' : List Tap} {j : Job}
  {coll : CollectionName} {id : ℕ} {l : List String} {Q Q' : CollectionName → ℕ → List String → Prop}

namespace Sound

theorem nil : Sound b₀ taps coll id [] := ⟨List.nodup_nil, nofun⟩

theorem mono (h : Sound b₀ taps coll id l) (hsub : taps ⊆ taps') : Sound b₀ taps' coll id l :=
  ⟨h.nodup, fun email hmem => (h.origin email hmem).imp_right (fun htap => hsub htap)⟩

theorem append {email : String} (h : Sound b₀ taps coll id l) (hnot : email ∉ l)
    (htap : (coll, id, email) ∈ taps) : Sound b₀ taps coll id (l ++ [email]) := by
  refine ⟨?_, fun x hx => ?_⟩
  · rw [List.nodup_append]
    refine ⟨h.nodup, List.nodup_singleton _, fun x hx y hy hxy => hnot ?_⟩
    rw [← List.mem_singleton.mp hy, ← hxy]
    exact hx
  · rcases List.mem_append.mp hx with hx | hx
    · exact h.origin x hx
    · rw [List.mem_singleton.mp hx]
      exact Or.inr htap

end Sound

namespace Carries

theorem mono (hQ : ∀ coll id l, Q coll id l → Q' coll id l) (h : Carries Q j) : Carries Q' j := by
  cases h with
  | result c coll p reply playlists shown =>
    exact .result c coll p reply playlists
      (fun docs hreply doc hdoc l hl => hQ _ _ _ (shown docs hreply doc hdoc l hl))
  | write c coll id l email reply playlists written =>
    exact .write c coll id l email reply playlists (hQ _ _ _ written)
  | none _ hnone => exact .none j hnone

theorem of_opens {c : ℕ} {r : Request} (h : opens r = true) : Carries Q (.issue c r) := by
  cases r with
  | checkPlaylists coll p => exact .result c coll p Option.none (of_decide_eq_true h) nofun
  | storeHasFound coll id l email => cases h
  | _ => exact .none _ rfl

theorem answer {b : Backend} {m : ℤ} (h : Carries Q j)
    (hstored : ∀ coll id, coll ≠ .userInfo → Q coll id (b.hasFound coll id)) :
    Carries Q (j.answer (j.request.operation.exec P m b).2) := by
  cases h with
  | result c coll p reply playlists shown =>
    refine .result c coll p _ playlists (fun docs hreply doc hdoc l hl => ?_)
    obtain rfl := Except.ok.inj (Option.some.inj hreply)
    rw [← Backend.hasFound_of_mem hdoc hl]
    exact hstored coll doc.id playlists
  | write c coll id l email reply playlists written =>
    exact .write c coll id l email _ playlists written
  | none _ hnone => exact .none _ hnone

theorem fail {err : String} (h : Carries Q j) : Carries Q (j.answer (.error err)) := by
  cases h with
  | result c coll p reply playlists shown => exact .result c coll p _ playlists nofun
  | write c coll id l email reply playlists written =>
    exact .write c coll id l email _ playlists written
  | none _ hnone => exact .none _ hnone

end Carries

/-- **A handler** writes the list that it was shown with the email of its device. -/
theorem carries_resume {d : Device} {m : ℤ} {a : Except String j.request.Answer}
    (h : Carries (Sound b₀ taps) j) (answered : j.reply = some a)
    (htaps : ∀ coll p docs, j = ⟨j.client, .checkPlaylists coll p, some (.ok docs)⟩ →
      ∀ doc ∈ docs, (coll, doc.id, d.sharedUserInfo.email) ∈ taps) :
    ∀ r ∈ (resume P j.request m a d).2, Carries (Sound b₀ taps) (.issue j.client r) := by
  intro r hr
  obtain ⟨c, r₀, reply⟩ := j
  change Except String r₀.Answer at a
  obtain rfl : reply = some a := answered
  cases h with
  | result c coll p reply playlists shown =>
    cases a with
    | error err => exact absurd hr List.not_mem_nil
    | ok docs =>
      obtain ⟨doc, hdoc, hfound⟩ :=
        List.mem_filterMap.mp ((checkPlaylists_requests coll docs d).subset hr)
      obtain ⟨l, hl, hnot, rfl⟩ := found?_eq_some.mp hfound
      exact .write c coll doc.id _ _ Option.none playlists
        ((shown docs rfl doc hdoc l hl).append hnot (htaps coll p docs rfl doc hdoc))
  | write c coll id l email reply playlists written =>
    obtain rfl := resume_leads P _ m a d r hr
    exact .none _ rfl
  | none _ hnone =>
    refine .none _ ?_
    have hleads := resume_leads P r₀ m a d r hr
    -- only the handler of a tap's query goes on with a list
    cases r with
    | checkPlaylists coll p => cases r₀ <;> simp [Leads] at hleads
    | storeHasFound coll id l email =>
      cases r₀ with
      | checkPlaylists coll' p => cases hnone
      | _ => simp [Leads] at hleads
    | _ => rfl

/-- **One move** keeps all lists sound. -/
theorem step_sound (h : AllSound b₀ taps s) (move : Step (app P) s ℓ s') :
    AllSound b₀ (taps ++ tapsOf s ℓ) s' := by
  have hsub : taps ⊆ taps ++ tapsOf s ℓ := List.subset_append_left _ _
  have hcarried : ∀ j ∈ s.jobs, Carries (Sound b₀ (taps ++ tapsOf s ℓ)) j :=
    fun j hj => (h.carried j hj).mono (fun _ _ _ hsound => hsound.mono hsub)
  refine ⟨fun coll id hcoll => ?_, ?_⟩
  · cases move with
    | @effect js₁ js₂ j m split waiting =>
      show Sound _ _ coll id ((j.request.operation.exec P m s.store).1.hasFound coll id)
      rcases hasFound_exec P j.request m s.store coll id with hsame | hnil | ⟨l, email, hr, hl⟩
      · rw [hsame]
        exact (h.stored coll id hcoll).mono hsub
      · rw [hnil]
        exact .nil
      · rw [hl]
        cases hcarried j (mem_of_split split) with
        | result => cases hr
        | write c coll' id' l' email' reply playlists written =>
          cases hr
          exact written
        | none _ hnone =>
          rw [hr] at hnone
          cases hnone
    | event | fail | deliver => exact (h.stored coll id hcoll).mono hsub
  · refine move.jobs (φ := fun _ j => Carries (Sound b₀ (taps ++ tapsOf s ℓ)) j) hcarried ?_ ?_ ?_ ?_
    · intro c e _ live r hr
      exact .of_opens (start_opens e (by simpa using live) r hr)
    · intro js₁ j js₂ m _ split _
      refine ⟨(hcarried j (mem_of_split split)).answer (fun coll id hcoll => ?_),
        fun j' hj' => hcarried j' ((rest_sublist split).subset hj')⟩
      exact (h.stored coll id hcoll).mono hsub
    · intro js₁ j js₂ err _ split _
      exact (hcarried j (mem_of_split split)).fail
    · rintro js₁ j js₂ m a rfl split answered _
      refine carries_resume (hcarried j (mem_of_split split)) answered ?_
      intro coll p docs hj doc hdoc
      refine List.mem_append_right _ ?_
      rw [tapsOf, getElem?_split split, hj]
      exact List.mem_map_of_mem (f := fun doc =>
        (coll, Store.Document.id doc, (s.locals j.client).sharedUserInfo.email)) hdoc

/-- **No list has an email twice, and each email came by a tap**: in every state that can be
reached, this holds of the lists of all playlists and of the lists in all writes that are on
their way. -/
theorem hasFound_sound {ls : List Label} (hs : s.jobs = [])
    (h₀ : ∀ coll id, coll ≠ .userInfo → (s.store.hasFound coll id).Nodup)
    (hrun : Run (app P) (fun _ _ => True) s ls s') :
    (∀ coll id, coll ≠ .userInfo →
      Sound s.store (collect (app P) tapsOf s ls) coll id (s'.store.hasFound coll id)) ∧
    ∀ j ∈ s'.jobs, ∀ coll id l email, j.request = .storeHasFound coll id l email →
      Sound s.store (collect (app P) tapsOf s ls) coll id l := by
  have hend : AllSound s.store ([] ++ collect (app P) tapsOf s ls) s' := by
    refine hrun.history (fun _ _ _ _ h _ move => step_sound h move) ⟨fun coll id hcoll => ?_, ?_⟩
    · exact ⟨h₀ coll id hcoll, fun email hmem => Or.inl hmem⟩
    · rw [hs]
      exact fun j hj => absurd hj List.not_mem_nil
  refine ⟨hend.stored, fun j hj coll id l email hr => ?_⟩
  cases hend.carried j hj with
  | result => cases hr
  | write c coll' id' l' email' reply playlists written =>
    cases hr
    exact written
  | none _ hnone =>
    rw [hr] at hnone
    cases hnone

def annTapsTwice : List Label :=
  [.event 0 (.calloutTapped ⟨.fin 0, .fin 0⟩), .event 0 (.calloutTapped ⟨.fin 0, .fin 0⟩),
    .effect 1 0, .effect 3 0, .deliver 3 0, .deliver 1 0, .effect 2 0, .effect 3 0]

theorem annTapsTwice_sound : ∃ s',
    Run (app .sample) (fun _ _ => True) twoUsers annTapsTwice s' ∧
    s'.store.hasFound .userPlaylists 0 = ["ann@mail.org"] ∧
    Sound twoUsers.store (collect (app .sample) tapsOf twoUsers annTapsTwice) .userPlaylists 0
      (s'.store.hasFound .userPlaylists 0) := by
  obtain ⟨s', hrun, hend⟩ := Run.exists_of_run (P := app .sample) (G := fun _ _ => true)
    (s := twoUsers) (l := annTapsTwice)
    (Q := fun s' => s'.store.hasFound .userPlaylists 0 = ["ann@mail.org"]) (by decide +kernel)
  have hnobody : ∀ coll id, coll ≠ .userInfo → (twoUsers.store.hasFound coll id).Nodup := by
    intro coll id hcoll
    cases coll with
    | masterPlaylists => exact List.nodup_nil
    | userPlaylists =>
      cases id with
      | zero => exact List.nodup_nil
      | succ n => exact List.nodup_nil
    | userInfo => exact absurd rfl hcoll
  have hfree := hrun.mono (H := fun _ _ => True) (fun _ _ _ => trivial)
  exact ⟨s', hfree, of_decide_eq_true hend, (hasFound_sound rfl hnobody hfree).1 _ _ nofun⟩

end SpotiFriend

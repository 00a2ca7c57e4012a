import SpotiFriend.Async.Jobs
import SpotiFriend.Async.Run
import SpotiFriend.Spec.Actions
import SpotiFriend.Spec.Documents

/-!
# No lost update of `hasFound`

The handler of a tap appends the user's email to the list that it read and writes the
whole list back.  `Writing` says what is known of such a write until it takes effect: it
contains the list that is stored and adds no more than the one email.

Main results, for any number of clients that only tap while no call fails:

* `step_writing`: a tap handled without a rival keeps `Writing`, and no list loses
  anyone;
* `hasFound_acknowledged`: so an acknowledged email stays in the list;
* `hasFound_overwritten`: with a rival it is lost.
-/

namespace SpotiFriend

open Async MapVC

def onlyTaps : Label → Bool
  | .event _ (.calloutTapped _) => true
  | .event _ _ => false
  | .fail _ _ => false
  | _ => true

/-- The job is about to write the list of the document for somebody else. -/
def rival (coll : CollectionName) (id : ℕ) (email : String) : Job → Bool
  | ⟨_, .storeHasFound coll' id' _ email', none⟩ => coll' = coll && id' = id && email' ≠ email
  | _ => false

/-- For each playlist of the result that the handler is going to write, nobody else is
about to write it, and the result shows everybody else who is in the stored list. -/
def unrivalled (s : State) : Job → Bool
  | ⟨c, .checkPlaylists coll _, some (.ok docs)⟩ => docs.all (fun doc =>
    (found? coll (s.locals c).sharedUserInfo.email doc).isNone ||
      (s.store.hasFound coll doc.id).all (fun x => x = (s.locals c).sharedUserInfo.email ||
        (getStrings doc.data .hasFound).any (fun l => l.contains x)) &&
      s.jobs.all (fun j => !rival coll doc.id (s.locals c).sharedUserInfo.email j))
  | _ => true

/-- Taps, each of them without a rival when its result is handled. -/
def unrivalledTaps (s : State) (ℓ : Label) : Bool :=
  onlyTaps ℓ && match ℓ with
    | .deliver i _ => s.jobs[i]?.all (unrivalled s)
    | _ => true

inductive Writing (b : Backend) : Job → Prop
  | tapped (c : ℕ) (coll : CollectionName) (p : Coordinate) :
      Writing b ⟨c, .checkPlaylists coll p, none⟩
  | checked (c : ℕ) (coll : CollectionName) (p : Coordinate) (docs : List Doc)
      (shown : ∀ doc ∈ docs, ∀ l, getStrings doc.data .hasFound = some l →
        l ⊆ b.hasFound coll doc.id) :
      Writing b ⟨c, .checkPlaylists coll p, some (.ok docs)⟩
  | marking (c : ℕ) (coll : CollectionName) (id : ℕ) (l : List String) (email : String)
      (mine : email ∈ l) (above : b.hasFound coll id ⊆ l)
      (below : l ⊆ email :: b.hasFound coll id) :
      Writing b ⟨c, .storeHasFound coll id l email, none⟩
  | marked (c : ℕ) (coll : CollectionName) (id : ℕ) (l : List String) (email : String)
      (there : email ∈ b.hasFound coll id) :
      Writing b ⟨c, .storeHasFound coll id l email, some (.ok ())⟩
  | asking (c : ℕ) (email : String) (reply) : Writing b ⟨c, .foundUserInfo email, reply⟩
  | counting (c : ℕ) (id : ℕ) (n : ℤ) (reply) : Writing b ⟨c, .storeFound id n, reply⟩

def NoRivals (j j' : Job) : Prop :=
  ∀ c c' coll id l l' email email', j = ⟨c, .storeHasFound coll id l email, none⟩ →
    j' = ⟨c', .storeHasFound coll id l' email', none⟩ → email = email'

structure Unrivalled (s : State) : Prop where
  jobs : ∀ j ∈ s.jobs, Writing s.store j
  pairs : s.jobs.Pairwise NoRivals

def Grows (b b' : Backend) : Prop := ∀ coll id, b.hasFound coll id ⊆ b'.hasFound coll id

variable {P : Platform} {s s₀ s₁ s₂ s' : State} {ℓ : Label} {b b' : Backend} {j : Job}

/-- A job is not disturbed when the lists grow and the list that it is about to write
gains nobody but its own user. -/
theorem Writing.frame (h : Writing b j) (hgrows : Grows b b')
    (hown : ∀ c coll id l email, j = ⟨c, .storeHasFound coll id l email, none⟩ →
      b'.hasFound coll id ⊆ email :: b.hasFound coll id) : Writing b' j := by
  cases h with
  | tapped c coll p => exact .tapped c coll p
  | checked c coll p docs shown =>
    exact .checked c coll p docs (fun doc hdoc l hl x hx => hgrows coll doc.id (shown doc hdoc l hl hx))
  | marking c coll id l email mine above below =>
    refine .marking c coll id l email mine (fun x hx => ?_) (fun x hx => ?_)
    · rcases List.mem_cons.mp (hown c coll id l email rfl hx) with rfl | hx
      · exact mine
      · exact above hx
    · rcases List.mem_cons.mp (below hx) with rfl | hx
      · exact List.mem_cons_self
      · exact List.mem_cons_of_mem _ (hgrows coll id hx)
  | marked c coll id l email there => exact .marked c coll id l email (hgrows coll id there)
  | asking c email reply => exact .asking c email reply
  | counting c id n reply => exact .counting c id n reply

/-- What a call does to the lists: they grow, the call goes on, and the jobs that do not
rival it are not disturbed. -/
theorem Writing.effect (h : Writing b j) (m : ℤ) (waiting : j.reply = none) :
    Grows b (j.request.operation.exec P m b).1 ∧
    Writing (j.request.operation.exec P m b).1 (j.answer (j.request.operation.exec P m b).2) ∧
    ∀ i, Writing b i → NoRivals j i → Writing (j.request.operation.exec P m b).1 i := by
  cases h with
  | tapped c coll p =>
    refine ⟨fun _ _ => List.Subset.refl _, .checked c coll p _ ?_, fun i hi _ => hi⟩
    intro doc hdoc l hl
    have hstored : b.hasFound coll doc.id = l := Backend.hasFound_of_mem hdoc hl
    show l ⊆ b.hasFound coll doc.id
    rw [hstored]
    exact List.Subset.refl _
  | marking c coll id l email mine above below =>
    have hgrows : Grows b ((Request.storeHasFound coll id l email).operation.exec P m b).1 := by
      intro coll' id'
      rw [hasFound_storeHasFound]
      split
      · next hsame =>
        obtain ⟨rfl, rfl⟩ := hsame
        exact above
      · exact List.Subset.refl _
    refine ⟨hgrows, .marked c coll id l email ?_, fun i hi hno => hi.frame hgrows ?_⟩
    · rw [hasFound_storeHasFound, if_pos ⟨rfl, rfl⟩]
      exact mine
    · rintro c' coll' id' l' email' rfl
      rw [hasFound_storeHasFound]
      split
      · next hsame =>
        obtain ⟨rfl, rfl⟩ := hsame
        obtain rfl := hno c c' coll' id' l l' email email' rfl rfl
        exact below
      · exact List.subset_cons_self _ _
  | asking c email reply =>
    exact ⟨fun _ _ => List.Subset.refl _, .asking c email _, fun i hi _ => hi⟩
  | counting c id n reply =>
    have hsame : ∀ coll id', ((Request.storeFound id n).operation.exec P m b).1.hasFound coll id' =
        b.hasFound coll id' :=
      fun coll id' => hasFound_setData_of_absent (by simp)
    have hgrows : Grows b ((Request.storeFound id n).operation.exec P m b).1 := by
      intro coll id'
      rw [hsame]
      exact List.Subset.refl _
    refine ⟨hgrows, .counting c id n _, fun i hi _ => hi.frame hgrows ?_⟩
    intro _ coll id' _ email _
    rw [hsame]
    exact List.subset_cons_self _ _
  | checked | marked => cases waiting

theorem noRivals_of_ne {c : ℕ} {r : Request}
    (h : ∀ coll id l email, r ≠ .storeHasFound coll id l email) : NoRivals j (.issue c r) := by
  intro _ _ coll id _ l' _ email' _ hj'
  exact absurd (congrArg Async.Job.request hj') (h coll id l' email')

/-- **The handlers**: what a result leaves is written without a rival. -/
theorem Writing.deliver (h : Writing s.store j) (m : ℤ) {a : Except String j.request.Answer}
    (answered : j.reply = some a) (live : (s.locals j.client).crashed = false)
    (fresh : unrivalled s j = true) :
    Leaves (Writing s.store) NoRivals s.jobs j.client
      (resume P j.request m a (s.locals j.client)).2 := by
  cases h with
  | checked c coll p docs shown =>
    cases answered
    have hrs := (checkPlaylists_requests coll docs (s.locals c)).subset
    -- each request is the write for one document, with what the guard says of it
    have hwrite : ∀ r ∈ (resume P (.checkPlaylists coll p) m (.ok docs) (s.locals c)).2,
        ∃ doc ∈ docs, ∃ l, getStrings doc.data .hasFound = some l ∧
          r = .storeHasFound coll doc.id (l ++ [(s.locals c).sharedUserInfo.email])
            (s.locals c).sharedUserInfo.email ∧
          (∀ x ∈ s.store.hasFound coll doc.id, x = (s.locals c).sharedUserInfo.email ∨ x ∈ l) ∧
          ∀ i ∈ s.jobs, rival coll doc.id (s.locals c).sharedUserInfo.email i = false := by
      intro r hr
      obtain ⟨doc, hdoc, hfound⟩ := List.mem_filterMap.mp (hrs hr)
      obtain ⟨l, hl, hnot, rfl⟩ := found?_eq_some.mp hfound
      have hg := List.all_eq_true.mp fresh doc hdoc
      simp only [hfound, hl, Option.isNone_some, Option.any_some, Bool.false_or, Bool.and_eq_true,
        List.all_eq_true, Bool.or_eq_true, decide_eq_true_eq, List.contains_iff_mem,
        Bool.not_eq_true'] at hg
      exact ⟨doc, hdoc, l, hl, rfl, hg.1, hg.2⟩
    refine ⟨?_, ?_, ?_⟩
    · intro r hr
      obtain ⟨doc, hdoc, l, hl, rfl, hall, -⟩ := hwrite r hr
      refine .marking c coll doc.id _ _ (by simp) (fun x hx => ?_) (fun x hx => ?_)
      · rw [List.mem_append, List.mem_singleton]
        exact (hall x hx).symm
      · rw [List.mem_append, List.mem_singleton] at hx
        rcases hx with hx | rfl
        · exact List.mem_cons_of_mem _ (shown doc hdoc l hl hx)
        · exact List.mem_cons_self
    · rw [List.pairwise_map]
      refine List.pairwise_of_forall_mem_list (fun r hr r' hr' => ?_)
      obtain ⟨doc, -, l, -, rfl, -⟩ := hwrite r hr
      obtain ⟨doc', -, l', -, rfl, -⟩ := hwrite r' hr'
      intro _ _ _ _ _ _ _ _ h₁ h₂
      cases h₁
      exact (Request.storeHasFound.inj (congrArg Async.Job.request h₂)).2.2.2
    · intro i hi r hr
      obtain ⟨doc, -, l, -, rfl, -, hno⟩ := hwrite r hr
      rintro c' _ coll' id' l₁ l₂ email₁ email₂ rfl h₂
      have hi := hno _ hi
      cases h₂
      simpa [rival] using hi
  | marked c coll id l email there =>
    cases answered
    exact .singleton (.asking c email none) (fun i _ => noRivals_of_ne (by simp))
  | asking c email reply =>
    have hrs : ∀ r ∈ (resume P (.foundUserInfo email) m a (s.locals c)).2,
        ∃ id n, r = .storeFound id n := by
      intro r hr
      cases a with
      | error e => cases hr
      | ok docs =>
        have hreply : (resume P (.foundUserInfo email) m (.ok docs) (s.locals c)).2 = _ :=
          congrArg Prod.snd (foundUserInfoReply_apply live docs)
        rw [hreply] at hr
        obtain ⟨doc, -, rfl⟩ := List.mem_map.mp hr
        exact ⟨_, _, rfl⟩
    refine .of_forall (fun r hr => ?_) (fun r hr i => ?_)
    · obtain ⟨id, n, rfl⟩ := hrs r hr
      exact .counting c id n none
    · obtain ⟨id, n, rfl⟩ := hrs r hr
      exact noRivals_of_ne (by simp)
  | counting c id n reply =>
    have hnone : (resume P (.storeFound id n) m a (s.locals c)).2 = [] := by
      cases a with
      | error e => rfl
      | ok _ => rfl
    rw [hnone]
    exact .nil
  | tapped | marking => cases answered

theorem taps_leave {c : ℕ} (live : (s.locals c).crashed = false) (p : Coordinate) :
    Leaves (Writing s.store) NoRivals s.jobs c (start (.calloutTapped p) (s.locals c)).2 := by
  have hrs : (start (.calloutTapped p) (s.locals c)).2 = _ :=
    congrArg Prod.snd (calloutTapped_apply live p)
  rw [hrs]
  refine .of_forall (fun r hr => ?_) (fun r hr i => ?_)
  · rcases List.mem_pair.mp hr with rfl | rfl
    · exact .tapped c _ p
    · exact .tapped c _ p
  · rcases List.mem_pair.mp hr with rfl | rfl
    · exact noRivals_of_ne (by simp)
    · exact noRivals_of_ne (by simp)

/-- **One move**: the invariant stays, and no list loses anyone. -/
theorem step_writing (h : Unrivalled s) (guard : unrivalledTaps s ℓ = true)
    (move : Step (app P) s ℓ s') : Unrivalled s' ∧ Grows s.store s'.store := by
  obtain ⟨hlabel, hfresh⟩ := Bool.and_eq_true_iff.mp guard
  have hkept : (∀ j ∈ s'.jobs, Writing s'.store j) ∧ s'.jobs.Pairwise NoRivals := by
    refine move.jobs_pairwise (fun hxy c c' coll id l l' email email' h₁ h₂ =>
        (hxy c' c coll id l' l email' email h₂ h₁).symm)
      (fun _ _ _ _ _ _ _ _ _ _ h₁ _ =>
        absurd (congrArg (fun j => j.reply.isSome) h₁) (by simp)) h.jobs h.pairs ?_ ?_ ?_ ?_
    · rintro c e rfl live
      cases e with
      | calloutTapped p => exact taps_leave (by simpa using live) p
      | _ => cases hlabel
    · intro i j m _ hj waiting
      obtain ⟨-, hself, hothers⟩ := (h.jobs j hj).effect (P := P) m waiting
      exact ⟨hself, fun j' hj' => hothers j' (h.jobs j' hj')⟩
    · rintro i j err rfl
      cases hlabel
    · rintro i j m a rfl hj answered live
      simp only [hj, Option.all_some] at hfresh
      exact (h.jobs j (List.mem_of_getElem? hj)).deliver m answered (by simpa using live) hfresh
  refine ⟨⟨hkept.1, hkept.2⟩, ?_⟩
  cases move with
  | @effect js₁ js₂ j m split waiting =>
    exact ((h.jobs j (mem_of_split split)).effect m waiting).1
  | event | fail | deliver => exact fun _ _ => List.Subset.refl _

theorem run_writing {ls : List Label} (hs : Unrivalled s)
    (h : Run (app P) (fun s ℓ => unrivalledTaps s ℓ) s ls s') :
    Unrivalled s' ∧ Grows s.store s'.store := by
  refine h.invariant (I := fun t => Unrivalled t ∧ Grows s.store t.store) ?_
    ⟨hs, fun _ _ => List.Subset.refl _⟩
  rintro t ℓ t' ⟨ht, hgrown⟩ guard move
  obtain ⟨ht', hgrows⟩ := step_writing ht guard move
  exact ⟨ht', fun coll id => List.Subset.trans (hgrown coll id) (hgrows coll id)⟩

/-- The job is a write that added the email to the list, and it has succeeded. -/
def acknowledges (coll : CollectionName) (id : ℕ) (email : String) : Job → Bool
  | ⟨_, .storeHasFound coll' id' _ email', some (.ok _)⟩ =>
    coll' = coll && id' = id && email' = email
  | _ => false

/-- **No lost update** without rivals: once the write that adds `email` to a playlist is
acknowledged, the email is in the list in every later state. -/
theorem hasFound_acknowledged {ls₁ ls₂ : List Label} {coll : CollectionName} {id : ℕ}
    {email : String} (hs₀ : s₀.jobs = [])
    (h₁ : Run (app P) (fun s ℓ => unrivalledTaps s ℓ) s₀ ls₁ s₁)
    (hacknowledged : s₁.jobs.any (acknowledges coll id email) = true)
    (h₂ : Run (app P) (fun s ℓ => unrivalledTaps s ℓ) s₁ ls₂ s₂) :
    email ∈ s₂.store.hasFound coll id := by
  have hstart : Unrivalled s₀ := by
    refine ⟨?_, ?_⟩
    · rw [hs₀]
      exact nofun
    · rw [hs₀]
      exact .nil
  obtain ⟨hmid, -⟩ := run_writing hstart h₁
  obtain ⟨-, hgrows⟩ := run_writing hmid h₂
  obtain ⟨j, hj, hack⟩ := List.any_eq_true.mp hacknowledged
  cases hmid.jobs j hj with
  | marked c coll' id' l email' there =>
    simp only [acknowledges, Bool.and_eq_true, decide_eq_true_eq] at hack
    obtain ⟨⟨rfl, rfl⟩, rfl⟩ := hack
    exact hgrows _ _ there
  | tapped | checked | marking | asking | counting => cases hack

/-! ### A lost update -/

def twoUsers : State where
  store := .of []
    [Dict.fields (Request.playlistDict "Road" "cleo" "cleo@mail.org" ⟨.fin 0, .fin 0⟩ defaultLink) 0]
    [Dict.fields (Request.userDict "ann" "ann@mail.org" "secret") 0,
      Dict.fields (Request.userDict "bob" "bob@mail.org" "hidden") 0]
    [⟨"ann@mail.org", "secret"⟩, ⟨"bob@mail.org", "hidden"⟩]
  locals
    | 0 => .atMap ⟨0, "ann@mail.org"⟩
      (Dict.fields (Request.userDict "ann" "ann@mail.org" "secret") 0)
    | 1 => .atMap ⟨1, "bob@mail.org"⟩
      (Dict.fields (Request.userDict "bob" "bob@mail.org" "hidden") 0)
    | _ => .launched
  jobs := []

/-- One user's tap up to the acknowledgement, the other user's query having been answered
before when `early`. -/
def annTaps (early : Bool) : List Label :=
  if early then
    [.event 0 (.calloutTapped ⟨.fin 0, .fin 0⟩), .event 1 (.calloutTapped ⟨.fin 0, .fin 0⟩),
      .effect 1 0, .effect 3 0, .deliver 1 0, .effect 3 0]
  else
    [.event 0 (.calloutTapped ⟨.fin 0, .fin 0⟩), .event 1 (.calloutTapped ⟨.fin 0, .fin 0⟩),
      .effect 1 0, .deliver 1 0, .effect 3 0, .effect 2 0]

def bobTaps : List Label := [.deliver 2 0, .effect 3 0]

theorem hasFound_annThenBob : ∃ s₁ s₂,
    Run (app .sample) (fun s ℓ => unrivalledTaps s ℓ) twoUsers (annTaps false) s₁ ∧
    s₁.jobs.any (acknowledges .userPlaylists 0 "ann@mail.org") = true ∧
    Run (app .sample) (fun s ℓ => unrivalledTaps s ℓ) s₁ bobTaps s₂ ∧
    "bob@mail.org" ∈ s₂.store.hasFound .userPlaylists 0 ∧
    "ann@mail.org" ∈ s₂.store.hasFound .userPlaylists 0 := by
  obtain ⟨s₁, h₁, hend₁⟩ := Run.exists_of_run (P := app .sample) (G := unrivalledTaps)
    (s := twoUsers) (l := annTaps false)
    (Q := fun s₁ => s₁.jobs.any (acknowledges .userPlaylists 0 "ann@mail.org") &&
      (run (app .sample) unrivalledTaps s₁ bobTaps).any (fun s₂ =>
        "bob@mail.org" ∈ s₂.store.hasFound .userPlaylists 0))
    (by decide +kernel)
  obtain ⟨hack, hend₂⟩ := Bool.and_eq_true_iff.mp hend₁
  obtain ⟨s₂, h₂, hbob⟩ := Run.exists_of_run hend₂
  exact ⟨s₁, s₂, h₁, hack, h₂, of_decide_eq_true hbob, hasFound_acknowledged rfl h₁ hack h₂⟩

/-- **A lost update**: both users read the list before either writes it, and the second
write takes the first user out again. -/
theorem hasFound_overwritten : ∃ s₁ s₂,
    Run (app .sample) (fun _ ℓ => onlyTaps ℓ) twoUsers (annTaps true) s₁ ∧
    s₁.jobs.any (acknowledges .userPlaylists 0 "ann@mail.org") = true ∧
    Run (app .sample) (fun _ ℓ => onlyTaps ℓ) s₁ bobTaps s₂ ∧
    (s₂.store.doc? .userPlaylists 0).isSome = true ∧
    "ann@mail.org" ∉ s₂.store.hasFound .userPlaylists 0 := by
  obtain ⟨s₁, h₁, hend₁⟩ := Run.exists_of_run (P := app .sample) (G := fun _ => onlyTaps)
    (s := twoUsers) (l := annTaps true)
    (Q := fun s₁ => s₁.jobs.any (acknowledges .userPlaylists 0 "ann@mail.org") &&
      (run (app .sample) (fun _ => onlyTaps) s₁ bobTaps).any (fun s₂ =>
        (s₂.store.doc? .userPlaylists 0).isSome &&
          "ann@mail.org" ∉ s₂.store.hasFound .userPlaylists 0))
    (by decide +kernel)
  obtain ⟨hack, hend₂⟩ := Bool.and_eq_true_iff.mp hend₁
  obtain ⟨s₂, h₂, hend⟩ := Run.exists_of_run hend₂
  obtain ⟨hthere, hlost⟩ := Bool.and_eq_true_iff.mp hend
  exact ⟨s₁, s₂, h₁, hack, h₂, hthere, of_decide_eq_true hlost⟩

end SpotiFriend

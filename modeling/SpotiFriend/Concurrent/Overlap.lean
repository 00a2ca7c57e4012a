import Mathlib.Data.List.Perm.Subperm
import SpotiFriend.Async.Jobs
import SpotiFriend.Async.Run
import SpotiFriend.Spec.Reload

/-!
# Loads that overlap

A reload clears the map at once, and the new pins come with two results later on.
`OnePinEach` says that no playlist has two pins.

Main results, for the loads of one map in which no call fails:

* `step_loads`: a load that begins with no result of an earlier one pending puts no pin
  twice on the map;
* `onePinEach`: so every map has one pin for each playlist at most;
* `pins_doubled`: with a result pending at the next clear, playlists have two pins.
-/

namespace SpotiFriend

open Async SpotiFriend.Action MapVC

/-- At most one pin for each document of the two collections. -/
def OnePinEach (b : Backend) (pins : List Annotation) : Prop :=
  pins.Subperm ((b.docs .masterPlaylists).filterMap staticPin ++
    (b.docs .userPlaylists).filterMap staticPin)

def load? (map : VC) : Request → Option CollectionName
  | .addStaticAnnotations map' => if map' = map then some .masterPlaylists else none
  | .addUserAnnotations map' => if map' = map then some .userPlaylists else none
  | _ => none

def loading (c : ℕ) (map : VC) : Label → Bool
  | .event c' (.viewDidLoad map') | .event c' (.reloadMapClicked map')
  | .event c' (.didUpdateLocations map' _) => c' = c && map' = map
  | .event c' (.userLocationChanged _) => c' = c
  | .event _ _ => false
  | .fail _ _ => false
  | _ => true

def loaded (map : VC) (s : State) : Bool := s.jobs.all (fun j => (load? map j.request).isNone)

/-- The same, where a load begins with no result of an earlier one pending; the first one
finds an empty map. -/
def loadingInTurn (c : ℕ) (map : VC) (s : State) (ℓ : Label) : Bool :=
  loading c map ℓ && match ℓ with
    | .event _ (.viewDidLoad _) => loaded map s && ((s.locals c).annotations map).isEmpty
    | .event _ (.reloadMapClicked _) => loaded map s
    | .event _ (.didUpdateLocations _ locations) => locations.isEmpty || loaded map s
    | _ => true

inductive Loading (c : ℕ) (map : VC) (b₀ : Backend) : Job → Prop
  | static (reply : Option (Except String (List Doc)))
      (shown : ∀ docs, reply = some (.ok docs) → docs.Sublist (b₀.docs .masterPlaylists)) :
      Loading c map b₀ ⟨c, .addStaticAnnotations map, reply⟩
  | user (reply : Option (Except String (List Doc)))
      (shown : ∀ docs, reply = some (.ok docs) → docs.Sublist (b₀.docs .userPlaylists)) :
      Loading c map b₀ ⟨c, .addUserAnnotations map, reply⟩
  | delete (id : ℕ) (reply : Option (Except String Unit)) :
      Loading c map b₀ ⟨c, .deleteOldPlaylist id, reply⟩

def DifferentLoads (map : VC) (j j' : Job) : Prop :=
  ∀ coll, ¬ (load? map j.request = some coll ∧ load? map j'.request = some coll)

/-- The pins on the map: those of each collection once, and none of a collection whose
result is pending. -/
structure PinnedOnce (b₀ : Backend) (map : VC) (pins : List Annotation) (jobs : List Job)
    (parts : CollectionName → List Annotation) : Prop where
  perm : pins.Perm (parts .masterPlaylists ++ parts .userPlaylists)
  once : ∀ coll, (parts coll).Sublist ((b₀.docs coll).filterMap staticPin)
  pending : ∀ coll, (∃ j ∈ jobs, load? map j.request = some coll) → parts coll = []

/-- The invariant; `b₀` is what the services held at the start. -/
structure Loads (c : ℕ) (map : VC) (b₀ : Backend) (s : State) : Prop where
  jobs : ∀ j ∈ s.jobs, Loading c map b₀ j
  pairs : s.jobs.Pairwise (DifferentLoads map)
  stored : ∀ coll, (s.store.docs coll).Sublist (b₀.docs coll)
  pinned : ∃ parts, PinnedOnce b₀ map ((s.locals c).annotations map) s.jobs parts

variable {P : Platform} {c : ℕ} {map : VC} {b b₀ : Backend} {s s' : State} {ℓ : Label} {j : Job}
  {coll : CollectionName}

theorem filterMap_sublist {α β : Type} {f g : α → Option β} (h : ∀ x y, f x = some y → g x = some y) :
    ∀ l : List α, (l.filterMap f).Sublist (l.filterMap g) := by
  intro l
  induction l with
  | nil => exact List.Sublist.refl _
  | cons x l ih =>
    cases hf : f x with
    | none =>
      rw [List.filterMap_cons_none hf]
      cases hg : g x with
      | none =>
        rw [List.filterMap_cons_none hg]
        exact ih
      | some y =>
        rw [List.filterMap_cons_some hg]
        exact ih.cons y
    | some y =>
      rw [List.filterMap_cons_some hf, List.filterMap_cons_some (h x y hf)]
      exact ih.cons_cons y

/-- A user's playlist has the pin that it would have among the master playlists. -/
theorem staticPin_of_userPin {now : ℤ} {location : Option Coordinate} {mapRadius : Double} {doc : Doc}
    {a : Annotation} (h : userPin P now location mapRadius doc = some a) : staticPin doc = some a := by
  rw [userPin] at h
  split at h
  · exact (Option.filter_eq_some_iff.mp h).1
  · cases h

theorem mem_of_load? {map' : VC} {r : Request} (h : load? map' r = some coll) :
    r = .addStaticAnnotations map' ∧ coll = .masterPlaylists ∨
      r = .addUserAnnotations map' ∧ coll = .userPlaylists := by
  cases r with
  | addStaticAnnotations map'' =>
    rw [load?] at h
    split at h
    · next hmap =>
      cases h
      exact Or.inl ⟨by rw [hmap], rfl⟩
    · cases h
  | addUserAnnotations map'' =>
    rw [load?] at h
    split at h
    · next hmap =>
      cases h
      exact Or.inr ⟨by rw [hmap], rfl⟩
    · cases h
  | _ => cases h

theorem DifferentLoads.symm {j j' : Job} (h : DifferentLoads map j j') : DifferentLoads map j' j :=
  fun coll hand => h coll ⟨hand.2, hand.1⟩

theorem pairwise_differentLoads {l : List Job} : l.Pairwise (DifferentLoads map) ↔
    (l.map Job.request).Pairwise (fun r r' => ∀ coll,
      ¬ (load? map r = some coll ∧ load? map r' = some coll)) := by
  rw [List.pairwise_map]
  exact Iff.rfl

theorem Loading.client (h : Loading c map b₀ j) : j.client = c := by cases h <;> rfl

theorem Loading.effect (h : Loading c map b₀ j) (hstored : ∀ coll, (b.docs coll).Sublist (b₀.docs coll))
    (m : ℤ) : Loading c map b₀ (j.answer (j.request.operation.exec P m b).2) ∧
      ∀ coll, ((j.request.operation.exec P m b).1.docs coll).Sublist (b₀.docs coll) := by
  cases h with
  | static reply shown =>
    refine ⟨.static _ (fun docs hdocs => ?_), hstored⟩
    obtain rfl := Except.ok.inj (Option.some.inj hdocs)
    rw [Backend.getDocuments_all]
    exact hstored _
  | user reply shown =>
    refine ⟨.user _ (fun docs hdocs => ?_), hstored⟩
    obtain rfl := Except.ok.inj (Option.some.inj hdocs)
    rw [Backend.getDocuments_all]
    exact hstored _
  | delete id reply =>
    refine ⟨.delete id _, fun coll => List.Sublist.trans ?_ (hstored coll)⟩
    rw [Backend.docs, Operation.exec, Backend.setCollection_firestore]
    by_cases hcoll : coll = .userPlaylists
    · rw [hcoll, Function.update_self, Store.Collection.docs_delete]
      exact List.filter_sublist
    · rw [Function.update_of_ne hcoll]
      exact List.Sublist.refl _

/-! ### The pins -/

namespace PinnedOnce

variable {pins : List Annotation} {jobs jobs' : List Job} {parts : CollectionName → List Annotation}

theorem nil : PinnedOnce b₀ map [] jobs (fun _ => []) :=
  ⟨List.Perm.refl _, fun _ => List.nil_sublist _, fun _ _ => rfl⟩

theorem mono (h : PinnedOnce b₀ map pins jobs parts)
    (hjobs : ∀ j ∈ jobs', ∀ coll, load? map j.request = some coll →
      ∃ j ∈ jobs, load? map j.request = some coll) : PinnedOnce b₀ map pins jobs' parts :=
  ⟨h.perm, h.once, fun coll ⟨j, hj, hload⟩ => h.pending coll (hjobs j hj coll hload)⟩

theorem add {docs : List Doc} {pin : Doc → Option Annotation} (h : PinnedOnce b₀ map pins jobs parts)
    (hcoll : coll = .masterPlaylists ∨ coll = .userPlaylists)
    (hpending : ∃ j ∈ jobs, load? map j.request = some coll)
    (hdocs : docs.Sublist (b₀.docs coll)) (hpin : ∀ doc a, pin doc = some a → staticPin doc = some a)
    (hothers : ∀ j ∈ jobs', ∀ coll', load? map j.request = some coll' →
      coll' ≠ coll ∧ ∃ j ∈ jobs, load? map j.request = some coll') :
    PinnedOnce b₀ map (pins ++ docs.filterMap pin) jobs'
      (Function.update parts coll (docs.filterMap pin)) := by
  have hnone := h.pending coll hpending
  refine ⟨?_, fun coll' => ?_, fun coll' hsome => ?_⟩
  · rcases hcoll with rfl | rfl
    · rw [Function.update_self,
        Function.update_of_ne (show CollectionName.userPlaylists ≠ .masterPlaylists from nofun)]
      have hperm := h.perm
      rw [hnone, List.nil_append] at hperm
      exact (hperm.append_right _).trans List.perm_append_comm
    · rw [Function.update_self,
        Function.update_of_ne (show CollectionName.masterPlaylists ≠ .userPlaylists from nofun)]
      have hperm := h.perm
      rw [hnone, List.append_nil] at hperm
      exact hperm.append_right _
  · by_cases hsame : coll' = coll
    · subst hsame
      rw [Function.update_self]
      exact (filterMap_sublist hpin docs).trans (hdocs.filterMap staticPin)
    · rw [Function.update_of_ne hsame]
      exact h.once coll'
  · obtain ⟨j, hj, hload⟩ := hsome
    obtain ⟨hne, hbefore⟩ := hothers j hj coll' hload
    rw [Function.update_of_ne hne]
    exact h.pending coll' hbefore

theorem noneTwice (h : PinnedOnce b₀ map pins jobs parts) : OnePinEach b₀ pins :=
  h.perm.subperm.trans ((h.once _).append (h.once _)).subperm

end PinnedOnce

/-! ### Runs -/

theorem loaded_iff (h : loaded map s = true) {j : Job} (hj : j ∈ s.jobs) : load? map j.request ≠ some coll := by
  intro hload
  have hnone := List.all_eq_true.mp h j hj
  rw [hload] at hnone
  cases hnone

/-- **A load begins**, with an empty map and no result pending. -/
theorem Loads.begin {d : Device} (h : Loads c map b₀ s) (hloaded : loaded map s = true)
    (hempty : d.annotations map = []) : Loads c map b₀
      (s.proceed c s.jobs (d, [.addStaticAnnotations map, .addUserAnnotations map])) := by
  have hnew : ∀ r ∈ [Request.addStaticAnnotations map, .addUserAnnotations map],
      Loading c map b₀ (.issue c r) := by
    intro r hr
    rcases List.mem_pair.mp hr with rfl | rfl
    · exact .static none nofun
    · exact .user none nofun
  refine ⟨fun j hj => ?_, ?_, h.stored, fun _ => [], ?_⟩
  · rcases List.mem_append.mp hj with hj | hj
    · exact h.jobs j hj
    · obtain ⟨r, hr, rfl⟩ := List.mem_map.mp hj
      exact hnew r hr
  · rw [State.proceed_jobs, List.pairwise_append]
    refine ⟨h.pairs, List.pairwise_pair.mpr (fun coll hand => ?_), fun j hj j' _ coll hand =>
      loaded_iff hloaded hj hand.1⟩
    -- the two queries are about different collections
    rcases mem_of_load? hand.1 with ⟨-, hcoll⟩ | ⟨hr, -⟩
    · rcases mem_of_load? hand.2 with ⟨hr, -⟩ | ⟨-, hcoll'⟩
      · cases hr
      · rw [hcoll] at hcoll'
        cases hcoll'
    · cases hr
  · rw [State.proceed_locals, Function.update_self, hempty]
    exact .nil

/-- **A result** puts its pins on the map, and its load is not pending any more. -/
theorem Loads.deliver {js₁ js₂ : List Job} {m : ℤ} {a : Except String j.request.Answer}
    (h : Loads c map b₀ s) (split : s.jobs = js₁ ++ j :: js₂) (answered : j.reply = some a)
    (live : (s.locals j.client).crashed = false) : Loads c map b₀
      (s.proceed j.client (js₁ ++ js₂) (resume P j.request m a (s.locals j.client))) := by
  have hrest := (rest_sublist split).subset
  obtain ⟨parts, hpinned⟩ := h.pinned
  have hpairs := h.pairs
  rw [split, List.pairwise_middle DifferentLoads.symm] at hpairs
  obtain ⟨hself, hothers⟩ := List.pairwise_cons.mp hpairs
  have hpending : ∀ {coll}, load? map j.request = some coll →
      ∃ j ∈ s.jobs, load? map j.request = some coll := fun hload => ⟨j, mem_of_split split, hload⟩
  -- what is left are the other jobs and deletions
  suffices hnext : (∀ r ∈ (resume P j.request m a (s.locals j.client)).2,
      ∃ id, r = .deleteOldPlaylist id) ∧ ∃ parts, PinnedOnce b₀ map
        ((resume P j.request m a (s.locals j.client)).1.annotations map) (js₁ ++ js₂) parts by
    obtain ⟨hdeletes, parts', hpinned'⟩ := hnext
    have hnone : ∀ j' : Job,
        j' ∈ (resume P j.request m a (s.locals j.client)).2.map (Job.issue j.client) →
        load? map j'.request = none := by
      intro j' hj'
      obtain ⟨r, hr, rfl⟩ := List.mem_map.mp hj'
      obtain ⟨id, rfl⟩ := hdeletes r hr
      rfl
    have hclient := (h.jobs j (mem_of_split split)).client
    refine ⟨fun j' hj' => ?_, ?_, h.stored, parts', ?_⟩
    · rcases List.mem_append.mp hj' with hj' | hj'
      · exact h.jobs j' (hrest hj')
      · obtain ⟨r, hr, rfl⟩ := List.mem_map.mp hj'
        obtain ⟨id, rfl⟩ := hdeletes r hr
        rw [hclient]
        exact .delete id none
    · rw [State.proceed_jobs, List.pairwise_append]
      refine ⟨hothers, List.pairwise_of_forall_mem_list (fun j' hj' _ _ coll hand => ?_),
        fun _ _ j' hj' coll hand => ?_⟩
      · rw [hnone j' hj'] at hand
        cases hand.1
      · rw [hnone j' hj'] at hand
        cases hand.2
    · rw [State.proceed_locals, hclient, Function.update_self]
      rw [hclient] at hpinned'
      refine hpinned'.mono (fun j' hj' coll hload => ?_)
      rcases List.mem_append.mp hj' with hj' | hj'
      · exact ⟨j', hj', hload⟩
      · rw [hnone j' (hclient ▸ hj')] at hload
        cases hload
  have hstill : (∃ parts, PinnedOnce b₀ map ((s.locals c).annotations map) (js₁ ++ js₂) parts) :=
    ⟨parts, hpinned.mono (fun j' hj' coll hload => ⟨j', hrest hj', hload⟩)⟩
  cases h.jobs j (mem_of_split split) with
  | static reply shown =>
    cases a with
    | error err => exact ⟨fun r hr => absurd hr List.not_mem_nil, hstill⟩
    | ok docs =>
      have hreply : resume P (.addStaticAnnotations map) m (.ok docs) (s.locals c) = _ :=
        addStaticAnnotationsReply_apply _ docs live
      have hload : load? map (.addStaticAnnotations map) = some .masterPlaylists := if_pos rfl
      rw [hreply, withPins_annotations]
      refine ⟨fun r hr => absurd hr List.not_mem_nil, _, hpinned.add (Or.inl rfl) (hpending hload)
        (shown docs answered) (fun _ _ hpin => hpin) (fun j' hj' coll' hload' => ⟨?_, j', hrest hj', hload'⟩)⟩
      rintro rfl
      exact hself j' hj' _ ⟨hload, hload'⟩
  | user reply shown =>
    cases a with
    | error err => exact ⟨fun r hr => absurd hr List.not_mem_nil, hstill⟩
    | ok docs =>
      obtain ⟨l, hreply⟩ :=
        addUserAnnotationsReply_apply P map m docs live
      have hreply : resume P (.addUserAnnotations map) m (.ok docs) (s.locals c) = _ := hreply
      have hload : load? map (.addUserAnnotations map) = some .userPlaylists := if_pos rfl
      rw [hreply, withPins_annotations]
      refine ⟨fun r hr => ?_, _, hpinned.add (Or.inr rfl) (hpending hload) (shown docs answered)
        (fun _ _ hpin => staticPin_of_userPin hpin)
        (fun j' hj' coll' hload' => ⟨?_, j', hrest hj', hload'⟩)⟩
      · obtain ⟨doc, -, rfl⟩ := List.mem_map.mp hr
        exact ⟨doc.id, rfl⟩
      · rintro rfl
        exact hself j' hj' _ ⟨hload, hload'⟩
  | delete id reply =>
    cases a with
    | error err => exact ⟨fun r hr => absurd hr List.not_mem_nil, hstill⟩
    | ok _ => exact ⟨fun r hr => absurd hr List.not_mem_nil, hstill⟩

theorem Loads.still {d : Device} (h : Loads c map b₀ s)
    (hpins : d.annotations map = (s.locals c).annotations map) :
    Loads c map b₀ (s.proceed c s.jobs (d, [])) := by
  obtain ⟨parts, hpinned⟩ := h.pinned
  refine ⟨fun j hj => h.jobs j (by simpa using hj), by simpa using h.pairs, h.stored, parts, ?_⟩
  rw [State.proceed_locals, Function.update_self, State.proceed_jobs, hpins]
  exact hpinned.mono (fun j hj coll hload => ⟨j, by simpa using hj, hload⟩)

theorem Loads.effect {js₁ js₂ : List Job} (h : Loads c map b₀ s) (split : s.jobs = js₁ ++ j :: js₂)
    (m : ℤ) : Loads c map b₀ (s.settle (j.request.operation.exec P m s.store).1
      (js₁ ++ j.answer (j.request.operation.exec P m s.store).2 :: js₂)) := by
  have heffect := (h.jobs j (mem_of_split split)).effect (P := P) h.stored m
  have hrequests : (js₁ ++ j.answer (j.request.operation.exec P m s.store).2 :: js₂).map
      Job.request = s.jobs.map Job.request := by simp [split]
  obtain ⟨parts, hpinned⟩ := h.pinned
  refine ⟨fun j' hj' => ?_, ?_, heffect.2, parts, hpinned.mono (fun j' hj' coll hload => ?_)⟩
  · rcases List.mem_append.mp hj' with hj' | hj'
    · exact h.jobs j' ((rest_sublist split).subset (List.mem_append_left _ hj'))
    · rcases List.mem_cons.mp hj' with rfl | hj'
      · exact heffect.1
      · exact h.jobs j' ((rest_sublist split).subset (List.mem_append_right _ hj'))
  · have hpairs := h.pairs
    rw [pairwise_differentLoads] at hpairs ⊢
    rw [State.settle_jobs, hrequests]
    exact hpairs
  · obtain ⟨j'', hj'', hsame⟩ := List.mem_map.mp (hrequests ▸ List.mem_map_of_mem (f := Job.request) hj')
    exact ⟨j'', hj'', by rw [hsame]; exact hload⟩

/-- **One move**, where a load begins with no result pending. -/
theorem step_loads (h : Loads c map b₀ s) (guard : loadingInTurn c map s ℓ = true)
    (move : Step (app P) s ℓ s') : Loads c map b₀ s' := by
  obtain ⟨hloading, hturn⟩ := Bool.and_eq_true_iff.mp guard
  cases move with
  | event c' e live =>
    have live : (s.locals c').crashed = false := by simpa using live
    cases e with
    | viewDidLoad map' =>
      obtain ⟨rfl, rfl⟩ : c' = c ∧ map' = map := by simpa [loading] using hloading
      obtain ⟨hloaded, hempty⟩ := Bool.and_eq_true_iff.mp hturn
      show Loads c' map' b₀ (s.proceed c' s.jobs (viewDidLoad map' (s.locals c')))
      rw [viewDidLoad_apply live]
      exact h.begin hloaded (List.isEmpty_iff.mp hempty)
    | reloadMapClicked map' =>
      obtain ⟨rfl, rfl⟩ : c' = c ∧ map' = map := by simpa [loading] using hloading
      show Loads c' map' b₀ (s.proceed c' s.jobs (updateAnnotations map' (s.locals c')))
      rw [updateAnnotations_apply live]
      exact h.begin hturn (Function.update_self ..)
    | didUpdateLocations map' locations =>
      obtain ⟨rfl, rfl⟩ : c' = c ∧ map' = map := by simpa [loading] using hloading
      cases locations with
      | nil => exact h.still rfl
      | cons latestLoc locations =>
        show Loads c' map' b₀ (s.proceed c' s.jobs (zoomToLatestLoc map' latestLoc (s.locals c')))
        rw [zoomToLatestLoc_apply live]
        exact h.begin hturn (Function.update_self ..)
    | userLocationChanged location =>
      obtain rfl : c' = c := by simpa [loading] using hloading
      exact h.still rfl
    | _ => cases hloading
  | effect j m split waiting => exact h.effect split m
  | fail j err split waiting => cases hloading
  | deliver j m split answered live => exact h.deliver split answered (by simpa using live)

/-- **One pin for each playlist**, when every load begins with no result pending. -/
theorem onePinEach {ls : List Label} (hs : s.jobs = []) (hmap : (s.locals c).annotations map = [])
    (hrun : Run (app P) (fun s ℓ => loadingInTurn c map s ℓ = true) s ls s') :
    OnePinEach s.store ((s'.locals c).annotations map) := by
  have hstart : Loads c map s.store s := by
    refine ⟨fun j hj => ?_, by rw [hs]; exact .nil, fun _ => List.Sublist.refl _, fun _ => [], ?_⟩
    · rw [hs] at hj
      exact absurd hj List.not_mem_nil
    · rw [hmap]
      exact .nil
  obtain ⟨parts, hpinned⟩ := (hrun.invariant (fun _ _ _ h guard move => step_loads h guard move) hstart).pinned
  exact hpinned.noneTwice

/-! ### Two loads at once -/

def roadAndHome : State where
  store := .of
    [Dict.fields (Request.playlistDict "Home" "SpotiFriend" "" ⟨.fin 0, .fin 0⟩ defaultLink) 0]
    [Dict.fields (Request.playlistDict "Road" "cleo" "cleo@mail.org" ⟨.fin 0, .fin 0⟩ defaultLink) 0]
    [] []
  locals _ := { Device.launched with userLocation := some ⟨.fin 0, .fin 0⟩ }
  jobs := []

/-- The map is loaded, and the location is reported after that or, when `early`, before the
results are there. -/
def annStarts (early : Bool) : List Label :=
  if early then
    [.event 0 (.viewDidLoad 0), .event 0 (.didUpdateLocations 0 [⟨.fin 0, .fin 0⟩]), .effect 0 0,
      .effect 1 0, .effect 2 0, .effect 3 0, .deliver 0 0, .deliver 0 0, .deliver 0 0, .deliver 0 0]
  else
    [.event 0 (.viewDidLoad 0), .effect 1 0, .effect 0 0, .deliver 0 0, .deliver 0 0,
      .event 0 (.didUpdateLocations 0 [⟨.fin 0, .fin 0⟩]), .effect 0 0, .effect 1 0, .deliver 1 0,
      .deliver 0 0]

theorem onePinEach_late : ∃ s',
    Run (app .sample) (fun s ℓ => loadingInTurn 0 0 s ℓ = true) roadAndHome (annStarts false) s' ∧
    s'.jobs = [] ∧ ((s'.locals 0).annotations 0).length = 2 ∧
    OnePinEach roadAndHome.store ((s'.locals 0).annotations 0) := by
  obtain ⟨s', hrun, hend⟩ := Run.exists_of_run (P := app .sample) (G := loadingInTurn 0 0)
    (s := roadAndHome) (l := annStarts false)
    (Q := fun s' => s'.jobs.isEmpty && ((s'.locals 0).annotations 0).length = 2) (by decide +kernel)
  obtain ⟨hquiet, htwo⟩ := Bool.and_eq_true_iff.mp hend
  exact ⟨s', hrun, List.isEmpty_iff.mp hquiet, of_decide_eq_true htwo, onePinEach rfl rfl hrun⟩

/-- **Doubled pins**: the first location is reported while the first load is pending, and in
the end each playlist has two pins. -/
theorem pins_doubled : ∃ s',
    Run (app .sample) (fun _ ℓ => loading 0 0 ℓ = true) roadAndHome (annStarts true) s' ∧
    s'.jobs = [] ∧ ¬ OnePinEach roadAndHome.store ((s'.locals 0).annotations 0) := by
  obtain ⟨s', hrun, hend⟩ := Run.exists_of_run (P := app .sample) (G := fun _ => loading 0 0)
    (s := roadAndHome) (l := annStarts true)
    (Q := fun s' => s'.jobs.isEmpty && ((s'.locals 0).annotations 0).length = 4) (by decide +kernel)
  obtain ⟨hquiet, hfour⟩ := Bool.and_eq_true_iff.mp hend
  refine ⟨s', hrun, List.isEmpty_iff.mp hquiet, fun hone => ?_⟩
  have hlength := hone.length_le
  rw [of_decide_eq_true hfour] at hlength
  revert hlength
  decide +kernel

end SpotiFriend

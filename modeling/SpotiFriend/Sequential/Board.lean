import SpotiFriend.Async.Refinement
import SpotiFriend.Sequential.Tap

/-!
# The app as a board of playlists

The app does its work on the playlists by queries and by writes to one document at a time; in
a sequential run each operation comes to one step of the board, whichever of its calls fail.
A link that is no URL counts as one that crashes the app, whether Spotify is installed or not.
A run in which a device crashes before its last reply is delivered never comes to rest, and
nothing is said of it.

* `board_refined`: a sequential run is a run of the board on what its events ask for;
* `found_kept`: a playlist stays what it is, and nobody who has found it is forgotten;
* `found_iff`: who is on the list of a playlist after a run in which no call fails.
-/

namespace SpotiFriend

open Async Store

def cardInput (P : Platform) (d : Device) : Event → Option (Board.Input Card String ℤ)
  | .viewDidLoad _ => some (.expire (Old P))
  | .reloadMapClicked _ => some (.expire (Old P))
  | .didUpdateLocations _ (_ :: _) => some (.expire (Old P))
  | .calloutTapped p => some (.find (AtPlace p) d.sharedUserInfo.email)
  | .addPlaylistClicked vc =>
    if AddPlaylistVC.accepts d vc then
      some (.post (fun now => cardOf .userPlaylists ((Request.playlistDict
        (d.text vc .titleTextField) d.sharedUserInfo.username d.sharedUserInfo.email (d.chosen vc)
        (d.text vc .linkTextField)).fields now)))
    else none
  | _ => none

variable {P : Platform} {may : Request → Bool → Prop} {s s' : State} {ls : List Label} {c : ℕ}
  {d : Device} {b : Backend} {coll : CollectionName} {id : ℕ} {f : Fields} {l : ℕ → Device} {e : Event}

/-- What an event asks of the board where it happens. -/
def cardInputs (P : Platform) (s : State) (c : ℕ) (e : Event) : List (Board.Input Card String ℤ) :=
  (cardInput P (s.locals c) e).toList

/-- **An operation** is one step of the board, or none. -/
theorem operation_posts (live : d.crashed = false)
    (hc : Completes (app P) may (running b l c (start e d)) ls s') :
    Steps (Board.Step (Misses (∃ r, may r false))) b.board (cardInput P d e).toList s'.store.board := by
  cases e with
  | viewDidLoad map =>
    rw [start, MapVC.viewDidLoad_apply live] at hc
    exact .single (reload_expires hc)
  | reloadMapClicked map =>
    rw [start, MapVC.updateAnnotations_apply live] at hc
    exact .single (reload_expires hc)
  | didUpdateLocations map locations =>
    cases locations with
    | nil =>
      obtain rfl := hc.done
      exact .nil _
    | cons latestLoc _ =>
      rw [start, MapVC.didUpdateLocations, MapVC.zoomToLatestLoc_apply live] at hc
      exact .single (reload_expires hc)
  | calloutTapped p => exact .single (tap_finds live hc)
  | addPlaylistClicked vc =>
    rw [cardInput]
    cases haccepts : AddPlaylistVC.accepts d vc with
    | true =>
      rw [start, AddPlaylistVC.addPlaylistClicked_accepted live haccepts] at hc
      exact .single (addPlaylist_added hc).posted
    | false =>
      obtain ⟨alerts, hclick⟩ := AddPlaylistVC.addPlaylistClicked_rejected haccepts
      rw [start, hclick] at hc
      obtain rfl := hc.done
      exact .nil _
  | updateClicked vc selectedEditID =>
    rw [board_kept (by cases selectedEditID <;> rfl) live hc]
    exact .nil _
  | _ =>
    rw [board_kept rfl live hc]
    exact .nil _

/-- **The app refines the board.**  A sequential run is a run of the board on what its events ask
for, all postings at once; something is missed only when a call fails or a tap crashes the app. -/
theorem board_refined (quiet : s.jobs = []) (done : s'.jobs = [])
    (hrun : Run (app P) (sequentially may (fun _ _ _ => True)) s ls s') :
    Steps (Board.Step (Misses (∃ r, may r false))) s.store.board
      (collect (app P) (inputs (cardInputs P)) s ls) s'.store.board := by
  obtain ⟨B, hsteps, rfl⟩ := hrun.refines (R := fun s B => B = s.store.board)
    (v := cardInputs P) (fun s c e ls s' B hB _ live hc =>
      ⟨_, hB ▸ operation_posts (by simpa using live) hc, rfl⟩) quiet done rfl
  exact hsteps

def annFinds : List Label :=
  [.event 0 (.calloutTapped ⟨.fin 0, .fin 0⟩)] ++ List.flatten (List.replicate 5 [.effect 0 0, .deliver 0 0])

def bobLooks : List Label :=
  [.event 1 (.reloadMapClicked 0)] ++ List.flatten (List.replicate 3 [.effect 0 0, .deliver 0 864000])

def inTurn (E : State → Event → Bool) (s : State) : Label → Bool
  | .event _ e => s.jobs.isEmpty && E s e
  | .fail _ _ => false
  | _ => true

theorem sequentially_of_inTurn {E : State → Event → Bool} {E' : State → ℕ → Event → Prop}
    (hE : ∀ s c e, E s e = true → E' s c e) (hrun : Run (app P) (fun s ℓ => inTurn E s ℓ = true) s ls s') :
    Run (app P) (sequentially (decidedBy (fun _ => true)) E') s ls s' := by
  refine hrun.mono (fun s ℓ guard => ?_)
  cases ℓ with
  | event c e =>
    obtain ⟨hjobs, hevent⟩ := Bool.and_eq_true_iff.mp guard
    exact ⟨List.isEmpty_iff.mp hjobs, hE s c e hevent⟩
  | effect i m => exact fun _ _ => rfl
  | fail i err => cases guard
  | deliver i m => trivial

theorem annFinds_refined : ∃ s' : State, Steps (Board.Step (Misses (∃ r : Request, decidedBy (fun _ => true) r false)))
      oldPlaylist.store.board
      (collect (app .sample) (inputs (cardInputs .sample)) oldPlaylist (annFinds ++ bobLooks)) s'.store.board ∧
    s'.store.doc? .userPlaylists 0 = none := by
  obtain ⟨s', hrun, hend⟩ := Run.exists_of_run (P := app .sample) (G := inTurn (fun _ _ => true))
    (s := oldPlaylist)
    (l := annFinds ++ bobLooks)
    (Q := fun s' => s'.jobs.isEmpty && (s'.store.doc? .userPlaylists 0).isNone) (by decide +kernel)
  obtain ⟨hdone, hgone⟩ := Bool.and_eq_true_iff.mp hend
  exact ⟨s', board_refined rfl (List.isEmpty_iff.mp hdone)
      (sequentially_of_inTurn (fun _ _ _ _ => trivial) hrun),
    Option.isNone_iff_eq_none.mp hgone⟩

/-- **A playlist stays what it is**, whoever finds it, and nobody who has found it is forgotten. -/
theorem found_kept (quiet : s.jobs = []) (done : s'.jobs = []) (hcoll : coll ≠ .userInfo)
    (hf : s.store.doc? coll id = some f)
    (hrun : Run (app P) (sequentially may (fun _ _ _ => True)) s ls s') {f' : Fields}
    (hf' : s'.store.doc? coll id = some f') :
    (∀ k, k ≠ .hasFound → f' k = f k) ∧ ∀ found, getStrings f .hasFound = some found →
      ∃ found', getStrings f' .hasFound = some found' ∧ found ⊆ found' := by
  have hgrows : (postingOf coll f).Grows (postingOf coll f') := by
    obtain ⟨x, hx, hgrows⟩ := Board.steps_grow (board_refined quiet done hrun)
      (k := (coll, id)) (And.intro hcoll (Collection.lt_next hf)) (postingOf coll f')
      (by rw [Backend.board_posting hcoll, hf']; rfl)
    rw [Backend.board_posting hcoll, hf] at hx
    obtain rfl := Option.some.inj hx
    exact hgrows
  refine ⟨fun k hk => ?_, fun found hfound => ?_⟩
  · have hfields := congrFun (congrArg Prod.snd hgrows.content) k
    rwa [postingOf, postingOf, cardOf_field hk, cardOf_field hk] at hfields
  · obtain ⟨F, hF, hsub⟩ := hgrows.found {email | email ∈ found} (by rw [postingOf, hfound]; rfl)
    obtain ⟨found', hfound', rfl⟩ := Option.map_eq_some_iff.mp hF
    exact ⟨found', hfound', hsub⟩

def foundByAnn : Fields :=
  Dict.fields ((.hasFound, .value (.strings ["ann@mail.org"])) ::
    Request.playlistDict "Road" "cleo" "cleo@mail.org" ⟨.fin 0, .fin 0⟩ MapVC.defaultLink) 0

def annHasFound : State where
  store := oldPlaylist.store.setCollection .userPlaylists (.ofList [foundByAnn])
  locals := oldPlaylist.locals
  jobs := []

def bobFinds : List Label := .event 1 (.calloutTapped ⟨.fin 0, .fin 0⟩) :: annFinds.tail

/-- Ann is still there. -/
theorem bobFinds_kept : ∃ s' f', Run (app .sample) (sequentially (decidedBy (fun _ => true)) (fun _ _ _ => True))
      annHasFound bobFinds s' ∧
    s'.store.doc? .userPlaylists 0 = some f' ∧
    ∃ found', getStrings f' .hasFound = some found' ∧ ["ann@mail.org"] ⊆ found' := by
  obtain ⟨s', hrun, hend⟩ := Run.exists_of_run (P := app .sample) (G := inTurn (fun _ _ => true))
    (s := annHasFound) (l := bobFinds)
    (Q := fun s' => s'.jobs.isEmpty && (s'.store.doc? .userPlaylists 0).isSome) (by decide +kernel)
  obtain ⟨hdone, hsome⟩ := Bool.and_eq_true_iff.mp hend
  obtain ⟨f', hf'⟩ := Option.isSome_iff_exists.mp hsome
  have hsequential : Run (app .sample) (sequentially (decidedBy (fun _ => true)) (fun _ _ _ => True))
      annHasFound bobFinds s' := sequentially_of_inTurn (fun _ _ _ _ => trivial) hrun
  refine ⟨s', f', hsequential, hf', ?_⟩
  exact (found_kept rfl (List.isEmpty_iff.mp hdone) (by decide) (f := foundByAnn) rfl hsequential hf').2 _ rfl

/-! ### Who has found a playlist -/

/-- A tap finds only links that can be opened. -/
def opensLinks (b : Backend) : Event → Bool
  | .calloutTapped p => [CollectionName.masterPlaylists, .userPlaylists].all (fun coll =>
    (b.getDocuments (.atCoordinate coll p)).all (fun doc => canOpen (MapVC.linkOf doc.data)))
  | _ => true

theorem not_unopenable {p : Coordinate} (h : opensLinks b (.calloutTapped p) = true) : ¬ Unopenable b p := by
  rintro ⟨coll, id, f, hinfo, hf, hplace, hlink⟩
  have hopens := List.all_eq_true.mp h coll (by cases coll <;> simp at hinfo ⊢)
  rw [List.all_eq_true.mp hopens ⟨id, f⟩ (Backend.mem_getDocuments.mpr ⟨hf, hplace⟩)] at hlink
  cases hlink

/-- The places that users tap on, with the emails that their devices have. -/
def taps (s : State) (c : ℕ) : Event → List (Coordinate × String)
  | .calloutTapped p => [(p, (s.locals c).sharedUserInfo.email)]
  | _ => []

theorem cardInput_find {place : Card → Prop} {email : String} (h : cardInput P d e = some (.find place email)) :
    ∃ p, e = .calloutTapped p ∧ place = AtPlace p ∧ email = d.sharedUserInfo.email := by
  cases e with
  | calloutTapped p =>
    cases h
    exact ⟨p, rfl, rfl, rfl⟩
  | didUpdateLocations map locations => cases locations <;> cases h
  | addPlaylistClicked vc =>
    rw [cardInput] at h
    split at h <;> cases h
  | _ => cases h

/-- An operation in which no call fails and no link crashes the app misses nothing. -/
theorem operation_exact (live : d.crashed = false) (hmay : ∀ r, ¬ may r false)
    (hopens : opensLinks b e = true) (hc : Completes (app P) may (running b l c (start e d)) ls s') :
    Steps Board.Exact b.board (cardInput P d e).toList s'.store.board := by
  have hop := operation_posts live hc
  cases hinput : cardInput P d e with
  | none =>
    rw [hinput] at hop
    rw [hop.eq_of_nil]
    exact .nil _
  | some i =>
    rw [hinput] at hop
    refine .single (hop.of_single.exact (fun hmiss => ?_))
    cases i with
    | find place email =>
      obtain ⟨p, rfl, rfl, rfl⟩ := cardInput_find hinput
      exact (misses_find.mp hmiss).elim (fun ⟨r, hr⟩ => hmay r hr) (not_unopenable hopens)
    | post | expire => exact hmiss.elim (fun r hr => hmay r hr)

/-- When no call fails and no link crashes the app, a run misses nothing. -/
theorem board_exact (quiet : s.jobs = []) (done : s'.jobs = []) (hmay : ∀ r, ¬ may r false)
    (hrun : Run (app P) (sequentially may (fun s _ e => opensLinks s.store e = true)) s ls s') :
    Steps Board.Exact s.store.board (collect (app P) (inputs (cardInputs P)) s ls) s'.store.board := by
  obtain ⟨B, hsteps, rfl⟩ := hrun.refines (R := fun s B => B = s.store.board) (v := cardInputs P)
    (fun s c e ls s' B hB hopens live hc =>
      ⟨_, hB ▸ operation_exact (by simpa using live) hmay hopens hc, rfl⟩) quiet done rfl
  exact hsteps

/-- Who has come by a playlist is who has tapped at its place. -/
theorem mem_visitors_iff {email : String} :
    email ∈ Board.visitors (collect (app P) (inputs (cardInputs P)) s ls) (cardOf coll f) ↔
      ∃ x ∈ collect (app P) (inputs taps) s ls,
        x.2 = email ∧ (Query.atCoordinate coll x.1).holds f = true := by
  have hmem : email ∈ Board.visitors (collect (app P) (inputs (cardInputs P)) s ls) (cardOf coll f) ↔
      ∃ i ∈ collect (app P) (inputs (cardInputs P)) s ls, ∃ place, i = .find place email ∧
        place (cardOf coll f) := by
    rw [Board.mem_visitors]
    exact ⟨fun ⟨place, hi, hplace⟩ => ⟨_, hi, place, rfl, hplace⟩,
      fun ⟨i, hi, place, he, hplace⟩ => ⟨place, he ▸ hi, hplace⟩⟩
  refine hmem.trans (exists_mem_collect (fun s ℓ => ?_))
  cases ℓ with
  | event c e =>
    simp only [inputs, cardInputs, Option.mem_toList]
    constructor
    · rintro ⟨i, hi, place, rfl, hplace⟩
      obtain ⟨p, rfl, rfl, rfl⟩ := cardInput_find hi
      exact ⟨_, List.mem_singleton_self _, rfl, atPlace_cardOf.mp hplace⟩
    · rintro ⟨x, hx, rfl, hplace⟩
      cases e with
      | calloutTapped p =>
        obtain rfl := List.mem_singleton.mp hx
        exact ⟨_, rfl, _, rfl, atPlace_cardOf.mpr hplace⟩
      | _ => exact absurd hx List.not_mem_nil
  | _ => simp [inputs]

/-- **Who has found a playlist**: exactly those who had found it before, and those who have tapped at
its place in the run. -/
theorem found_iff (quiet : s.jobs = []) (done : s'.jobs = []) (hmay : ∀ r, ¬ may r false)
    (hcoll : coll ≠ .userInfo) (hf : s.store.doc? coll id = some f) {found : List String}
    (hfound : getStrings f .hasFound = some found)
    (hrun : Run (app P) (sequentially may (fun s _ e => opensLinks s.store e = true)) s ls s')
    {f' : Fields} (hf' : s'.store.doc? coll id = some f') :
    ∃ found', getStrings f' .hasFound = some found' ∧ ∀ email, email ∈ found' ↔
      email ∈ found ∨ ∃ x ∈ collect (app P) (inputs taps) s ls,
        x.2 = email ∧ (Query.atCoordinate coll x.1).holds f = true := by
  obtain ⟨-, hfinders⟩ := Board.finders_of_steps (board_exact quiet done hmay hrun) (k := (coll, id))
    (And.intro hcoll (Collection.lt_next hf)) (x := postingOf coll f) (y := postingOf coll f')
    (by rw [Backend.board_posting hcoll, hf]; rfl) (by rw [Backend.board_posting hcoll, hf']; rfl)
  rw [postingOf, postingOf, hfound] at hfinders
  obtain ⟨found', hfound', hset⟩ := Option.map_eq_some_iff.mp hfinders
  refine ⟨found', hfound', fun email => ?_⟩
  rw [← mem_visitors_iff, or_comm]
  exact Set.ext_iff.mp hset email

/-- Ann and Bob have found the playlist, and nobody else. -/
theorem bobFinds_iff : ∃ (s' : State) (f' : Fields) (found' : List String),
    s'.store.doc? .userPlaylists 0 = some f' ∧ getStrings f' .hasFound = some found' ∧
    ∀ email, email ∈ found' ↔ email = "ann@mail.org" ∨ email = "bob@mail.org" := by
  obtain ⟨s', hrun, hend⟩ := Run.exists_of_run (P := app .sample)
    (G := inTurn (fun s e => opensLinks s.store e)) (s := annHasFound) (l := bobFinds)
    (Q := fun s' => s'.jobs.isEmpty && (s'.store.doc? .userPlaylists 0).isSome) (by decide +kernel)
  obtain ⟨hdone, hsome⟩ := Bool.and_eq_true_iff.mp hend
  obtain ⟨f', hf'⟩ := Option.isSome_iff_exists.mp hsome
  have hfound : getStrings foundByAnn .hasFound = some ["ann@mail.org"] := rfl
  obtain ⟨found', hfound', hiff⟩ := found_iff rfl (List.isEmpty_iff.mp hdone) (fun r h => by cases h)
    (by decide) rfl hfound (sequentially_of_inTurn (fun _ _ _ h => h) hrun) hf'
  have htaps : collect (app .sample) (inputs taps) annHasFound bobFinds =
      [(⟨.fin 0, .fin 0⟩, "bob@mail.org")] := by decide +kernel
  have hplace : (Query.atCoordinate .userPlaylists ⟨.fin 0, .fin 0⟩).holds foundByAnn = true := by
    decide +kernel
  refine ⟨s', f', found', hf', hfound', fun email => ?_⟩
  rw [hiff, htaps]
  simp only [List.mem_singleton, exists_eq_left, hplace, and_true]
  exact or_congr_right eq_comm

end SpotiFriend

import SpotiFriend.Concurrent.Deletion
import SpotiFriend.Concurrent.Expiry
import SpotiFriend.Spec.Shapes

/-!
# What the documents look like

The code reads documents by casts that skip what is not there or of another type, and it
writes some of them again in parts.  Here is what can come of that, for all that the app can
do, with any calls failing and in any order.

Main results:

* `shapes_kept`: every document of `userPlaylists` is a playlist as a click made it, but for
  its `hasFound`, or the remnant of one, with `hasFound` alone; and every field that is
  anywhere stored is of the type that it is read as;
* `remnant_stays`: a remnant, which no reload and no tap finds, is never removed or changed
  once nothing on its way concerns it;
* `masters_kept`: no playlist of `masterPlaylists` comes or goes, or changes but for `hasFound`.
-/

namespace SpotiFriend

open Async

def readable : Field → Value → Bool
  | .latitude, v | .longitude, v | .mapRadius, v => v.asDouble.isSome
  | .totalPlaylistsCreated, v | .totalPlaylistsFound, v => v.asInt.isSome
  | .date, v => v.asTimestamp.isSome
  | .hasFound, v => v.asStrings.isSome
  | _, v => v.asString.isSome

inductive Playlist : Fields → Prop
  /-- As the click made it that the server stamped with the time `t`, found by `l` since. -/
  | created (title author email : String) (p : Coordinate) (link : String) (t : ℤ) (l : List String)
      (filled : title ≠ "") (accepted : AddPlaylistVC.acceptsLink link = true) :
      Playlist (Function.update (Dict.fields (Request.playlistDict title author email p link) t)
        .hasFound (some (.strings l)))
  /-- What a write makes that comes after the deletion. -/
  | remnant (l : List String) : Playlist (Function.update (fun _ => none) .hasFound (some (.strings l)))

def shape : Shape
  | .userPlaylists, f => Playlist f
  | _, f => ∀ k v, f k = some v → readable k v = true

/-- Every document has the shape, and so has every result and every write on its way. -/
structure Conforms (s : State) : Prop where
  stored : Stored shape s.store
  jobs : ∀ j ∈ s.jobs, Shaped shape j

variable {P : Platform} {s s' : State} {ℓ : Label} {ls : List Label} {f : Fields} {d : Dict} {m : ℤ}
  {id : ℕ}

/-! ### Writes -/

theorem Playlist.merge {old : Option Fields} (l : List String) (h : ∀ f₀, old = some f₀ → Playlist f₀) :
    Playlist (Dict.merge [(.hasFound, .value (.strings l))] m old) := by
  rw [merge_hasFound]
  cases old with
  | none => exact .remnant l
  | some f₀ =>
    rw [Option.getD_some]
    cases h f₀ rfl with
    | created title author email p link t l₀ filled accepted =>
      rw [Function.update_idem]
      exact .created title author email p link t l filled accepted
    | remnant l₀ =>
      rw [Function.update_idem]
      exact .remnant l

theorem Playlist.of_dict {title author email : String} {p : Coordinate} {link : String}
    (filled : title ≠ "") (accepted : AddPlaylistVC.acceptsLink link = true) (t : ℤ) :
    Playlist (Dict.fields (Request.playlistDict title author email p link) t) := by
  have hnobody : Dict.fields (Request.playlistDict title author email p link) t .hasFound =
      some (.strings []) := rfl
  have h := Playlist.created title author email p link t [] filled accepted
  rw [← hnobody, Function.update_eq_self] at h
  exact h

theorem userDict_readable {username email password : String} (t : ℤ) {k : Field} {v : Value}
    (h : Dict.fields (Request.userDict username email password) t k = some v) :
    readable k v = true := by
  simp only [Request.userDict, Dict.fields_cons, Dict.fields_nil] at h
  split at h
  · next hk =>
    subst hk
    cases h
    rfl
  · split at h
    · next hk =>
      subst hk
      cases h
      rfl
    · split at h
      · next hk =>
        subst hk
        cases h
        rfl
      · cases h

theorem fits_single {coll : CollectionName} {k : Field} {v : Value} (hcoll : coll ≠ .userPlaylists)
    (hv : readable k v = true) : (Operation.setData coll id [(k, .value v)]).Fits shape := by
  have hreadable : ∀ m (old : Option Fields),
      (∀ f, old = some f → ∀ k' v', f k' = some v' → readable k' v' = true) →
      ∀ k' v', Dict.merge [(k, .value v)] m old k' = some v' → readable k' v' = true := by
    intro m old hold k' v' h
    rw [Dict.merge, Dict.fields_cons, Dict.fields_nil] at h
    by_cases hk : k' = k
    · rw [if_pos hk] at h
      cases h
      rw [hk]
      exact hv
    · rw [if_neg hk] at h
      cases old with
      | none => cases h
      | some f => exact hold f rfl k' v' h
  intro m old hold
  cases coll with
  | masterPlaylists => exact hreadable m old hold
  | userPlaylists => exact absurd rfl hcoll
  | userInfo => exact hreadable m old hold

/-- **Every call fits** but for a new playlist, which has to have a title and a link. -/
theorem fits_shape {r : Request} (h : ∀ title author email p link,
      r = .addPlaylist title author email p link →
        title ≠ "" ∧ AddPlaylistVC.acceptsLink link = true) : r.operation.Fits shape := by
  have hint : ∀ n : ℤ, (Value.int n).asInt.isSome = true := fun n => by rw [Value.asInt_int]; rfl
  cases r with
  | storeHasFound coll id l email =>
    cases coll with
    | masterPlaylists => exact fits_single (by decide) rfl
    | userPlaylists => exact fun m old hold => Playlist.merge l hold
    | userInfo => exact fits_single (by decide) rfl
  | storeFound id n => exact fits_single (by decide) (hint n)
  | addPlaylist title author email p link =>
    obtain ⟨filled, accepted⟩ := h title author email p link rfl
    exact fun m => Playlist.of_dict filled accepted m
  | storeCreated id n => exact fits_single (by decide) (hint n)
  | storeEmail id email => exact fits_single (by decide) rfl
  | storePassword id password => exact fits_single (by decide) rfl
  | storeUsername vc id username => exact fits_single (by decide) rfl
  | addUserInfo username email password => exact fun m k v hv => userDict_readable m hv
  | storeRadius vc id mapRadius => exact fits_single (by decide) rfl
  | storePicture id imgURL => exact fits_single (by decide) rfl
  | _ => trivial

/-! ### Runs -/

/-- An event adds a playlist only from a form that is filled in. -/
theorem start_addPlaylist {e : Event} {d : Device} (live : d.crashed = false)
    {title author email : String} {p : Coordinate} {link : String}
    (h : .addPlaylist title author email p link ∈ (start e d).2) :
    title ≠ "" ∧ AddPlaylistVC.acceptsLink link = true := by
  have hbegins := start_begins e live _ h
  cases e with
  | addPlaylistClicked vc =>
    obtain ⟨haccepts, hr⟩ := hbegins
    rcases hr with hr | hr
    · cases hr
      simp only [AddPlaylistVC.accepts, Bool.and_eq_true, decide_eq_true_eq] at haccepts
      exact ⟨haccepts.1.1, haccepts.2⟩
    · cases hr
  | updateClicked vc selectedEditID => cases selectedEditID <;> simp_all [Begins]
  | _ => simp_all [Begins]

theorem not_leads_addPlaylist {r : Request} {title author email : String} {p : Coordinate}
    {link : String} : ¬ Leads r (.addPlaylist title author email p link) := by
  intro h
  cases r <;> simp_all [Leads]

theorem step_conforms (h : Conforms s) (move : Step (app P) s ℓ s') : Conforms s' := by
  obtain ⟨hstored, hjobs⟩ := step_shaped h.stored h.jobs move
    (fun c e _ live r hr => fits_shape (fun title author email p link hadd =>
      start_addPlaylist live (hadd ▸ hr)))
    (fun js₁ j js₂ m a _ _ _ _ r hr => fits_shape (fun title author email p link hadd =>
      absurd (resume_leads P _ m a _ r hr) (hadd ▸ not_leads_addPlaylist)))
  exact ⟨hstored, hjobs⟩

/-- **All documents keep their shape.**  In every run that starts with nothing on its way, the
documents stay as they are described, and so do all that the results show. -/
theorem shapes_kept (quiet : s.jobs = []) (h : Stored shape s.store)
    (hrun : Run (app P) (fun _ _ => True) s ls s') : Conforms s' := by
  refine hrun.invariant (fun _ _ _ h _ move => step_conforms h move) ⟨h, ?_⟩
  rw [quiet]
  exact fun j hj => absurd hj List.not_mem_nil

theorem oldPlaylist_stored : Stored shape oldPlaylist.store := by
  intro coll id f hf
  cases coll with
  | masterPlaylists => cases hf
  | userPlaylists =>
    cases id with
    | zero =>
      cases hf
      exact .of_dict (by decide) (by decide +kernel) 0
    | succ n => cases hf
  | userInfo =>
    rcases id with _ | _ | n
    · cases hf
      exact fun k v hv => userDict_readable 0 hv
    · cases hf
      exact fun k v hv => userDict_readable 0 hv
    · cases hf

/-- The playlist that is deleted under a tap and comes back. -/
theorem deletedUnderTap_shapes : ∃ s' f,
    Run (app .sample) (fun _ _ => True) oldPlaylist (annTapsPin false ++ bobReloads ++ [.effect 1 0]) s' ∧
    s'.store.doc? .userPlaylists 0 = some f ∧ f .title = none ∧ Playlist f := by
  obtain ⟨s', hrun, hend⟩ := Run.exists_of_run (P := app .sample) (G := fun _ _ => true)
    (s := oldPlaylist) (l := annTapsPin false ++ bobReloads ++ [.effect 1 0])
    (Q := fun s' => (s'.store.doc? .userPlaylists 0).any (fun f => (f .title).isNone))
    (by decide +kernel)
  obtain ⟨f, hf, htitle⟩ := (Option.any_eq_true ..).mp hend
  have hfree := hrun.mono (H := fun _ _ => True) (fun _ _ _ => trivial)
  exact ⟨s', f, hfree, hf, Option.isNone_iff_eq_none.mp htitle,
    (shapes_kept rfl oldPlaylist_stored hfree).stored .userPlaylists 0 f hf⟩

/-! ### Taps -/

/-- The write of a tap is to a playlist in `W`, and its results show playlists in `W`. -/
def Aims (W : CollectionName → ℕ → Prop) : Job → Prop
  | ⟨_, .storeHasFound coll id _ _, _⟩ => W coll id
  | ⟨_, .checkPlaylists coll _, some (.ok docs)⟩ => ∀ doc ∈ docs, W coll doc.id
  | _ => True

/-- Only the handler of a tap's query goes on with a write to a playlist. -/
theorem leads_storeHasFound {r : Request} {coll : CollectionName} {l : List String} {email : String}
    (h : Leads r (.storeHasFound coll id l email)) : ∃ p, r = .checkPlaylists coll p := by
  cases r <;> simp_all [Leads]

theorem aims_resume {W : CollectionName → ℕ → Prop} {c : ℕ} {r : Request}
    {a : Except String r.Answer} {d : Device} (h : Aims W ⟨c, r, some a⟩) :
    ∀ r' ∈ (resume P r m a d).2, Aims W (.issue c r') := by
  intro r' hr'
  cases r' with
  | storeHasFound coll id l email =>
    obtain ⟨p, rfl⟩ := leads_storeHasFound (resume_leads P r m a d _ hr')
    change Except String (List Doc) at a
    cases a with
    | error err => exact absurd hr' List.not_mem_nil
    | ok docs =>
      obtain ⟨doc, hdoc, hfound⟩ :=
        List.mem_filterMap.mp ((MapVC.checkPlaylists_requests coll docs _).subset hr')
      obtain ⟨l', -, -, hwrite⟩ := MapVC.found?_eq_some.mp hfound
      cases hwrite
      exact h doc hdoc
  | _ => trivial

/-- **A move of any kind**: a tap writes to a playlist that its query found. -/
theorem step_aims {W : CollectionName → ℕ → Prop} (move : Step (app P) s ℓ s')
    (h : ∀ j ∈ s.jobs, Aims W j)
    (hquery : ∀ coll p, ∀ doc ∈ s.store.getDocuments (.atCoordinate coll p), W coll doc.id) :
    ∀ j ∈ s'.jobs, Aims W j := by
  refine move.jobs (φ := fun _ j => Aims W j) h ?_ ?_ ?_ ?_
  · intro c e _ live r hr
    have hopens := start_opens e (by simpa using live) r hr
    cases r with
    | storeHasFound coll id l email => cases hopens
    | _ => trivial
  · intro js₁ j js₂ m _ split _
    refine ⟨?_, fun j' hj' => h j' ((rest_sublist split).subset hj')⟩
    have hj := h j (mem_of_split split)
    obtain ⟨c, r, reply⟩ := j
    cases r with
    | storeHasFound coll id l email => exact hj
    | checkPlaylists coll p => exact hquery coll p
    | _ => trivial
  · intro js₁ j js₂ err _ split _
    have hj := h j (mem_of_split split)
    obtain ⟨c, r, reply⟩ := j
    cases r with
    | storeHasFound coll id l email => exact hj
    | _ => trivial
  · intro js₁ j js₂ m a _ split answered _
    have hj := h j (mem_of_split split)
    rw [Job.eq_of_reply answered] at hj
    exact aims_resume hj

/-! ### Remnants -/

/-- The job is to delete the users' playlist `id` or to write to it, or has a result that shows it. -/
def concerns (id : ℕ) : Job → Bool
  | ⟨_, .deleteOldPlaylist id', _⟩ => id' = id
  | ⟨_, .storeHasFound .userPlaylists id' _ _, _⟩ => id' = id
  | ⟨_, .addUserAnnotations _, some (.ok docs)⟩ => docs.any (fun doc => doc.id = id)
  | ⟨_, .checkPlaylists .userPlaylists _, some (.ok docs)⟩ => docs.any (fun doc => doc.id = id)
  | _ => false

theorem condemns_of_clear {j : Job} {φ : Doc → Prop} (h : concerns id j = false) :
    Condemns (· ≠ id) (fun doc => doc.id = id → φ doc) j := by
  obtain ⟨c, r, reply⟩ := j
  cases r with
  | deleteOldPlaylist id' => exact of_decide_eq_false h
  | addUserAnnotations map =>
    match reply, h with
    | none, _ | some (.error _), _ => exact trivial
    | some (.ok docs), h =>
      exact fun doc hdoc hid => absurd (decide_eq_true hid) (List.any_eq_false.mp h doc hdoc)
  | _ => trivial

theorem aims_of_clear {j : Job} (h : concerns id j = false) :
    Aims (fun coll id' => coll = .userPlaylists → id' ≠ id) j := by
  obtain ⟨c, r, reply⟩ := j
  cases r with
  | storeHasFound coll id' l email =>
    rintro rfl
    exact of_decide_eq_false h
  | checkPlaylists coll p =>
    match reply, h with
    | none, _ | some (.error _), _ => exact trivial
    | some (.ok docs), h =>
      rintro doc hdoc rfl hid
      exact List.any_eq_false.mp h doc hdoc (decide_eq_true hid)
  | _ => trivial

/-- The playlist is `f`, and no deletion and no write on its way is about it. -/
structure Remains (id : ℕ) (f : Fields) (s : State) : Prop where
  stored : s.store.doc? .userPlaylists id = some f
  spared : ∀ j ∈ s.jobs, Condemns (· ≠ id)
    (fun doc => doc.id = id → getTimestamp doc.data .date = none) j
  missed : ∀ j ∈ s.jobs, Aims (fun coll id' => coll = .userPlaylists → id' ≠ id) j

/-- A call leaves the playlist when it is no deletion of it and no write to it. -/
theorem exec_remains {b : Backend} (r : Request) (m : ℤ)
    (stored : b.doc? .userPlaylists id = some f) (spared : r ≠ .deleteOldPlaylist id)
    (missed : ∀ l email, r ≠ .storeHasFound .userPlaylists id l email) :
    (r.operation.exec P m b).1.doc? .userPlaylists id = some f := by
  rcases exec_firestore r.operation P m b with
    ⟨coll, id', data, ho⟩ | ⟨coll, data, ho⟩ | ⟨coll, id', ho⟩ | hsame
  · rw [ho, doc?_setData, if_neg]
    · exact stored
    · rintro ⟨rfl, rfl⟩
      rcases setData_cases ho with ⟨l, email, hr, -⟩ | ⟨hcoll, -⟩
      · exact missed l email hr
      · cases hcoll
  · rw [ho, doc?_addDocument, if_neg]
    · exact stored
    · rintro ⟨rfl, rfl⟩
      exact Nat.lt_irrefl _ (Store.Collection.lt_next stored)
  · rw [ho, doc?_deleteDocument, if_neg]
    · exact stored
    · rintro ⟨rfl, rfl⟩
      rcases deleteDocument_cases ho with hr | hcoll
      · exact spared hr
      · cases hcoll
  · rw [Backend.doc?, hsame]
    exact stored

/-- **One move** does not touch a playlist that has neither a date nor a place: no reload sees
it as expired, and no tap finds it. -/
theorem step_remains (undated : getTimestamp f .date = none) (unplaced : getDouble f .latitude = none)
    (h : Remains id f s) (move : Step (app P) s ℓ s') : Remains id f s' := by
  refine ⟨?_, ?_, ?_⟩
  · cases move with
    | @effect js₁ js₂ j m split waiting =>
      have hspared := h.spared j (mem_of_split split)
      have hmissed := h.missed j (mem_of_split split)
      refine exec_remains j.request m h.stored (fun hr => ?_) (fun l email hr => ?_)
      · exact hspared.of_deletion hr rfl
      · obtain ⟨c, r, reply⟩ := j
        cases hr
        exact hmissed rfl rfl
    | event | fail | deliver => exact h.stored
  · refine step_condemns move h.spared (fun _ hid => hid) (fun _ hdoc => hdoc) ?_ ?_
    · intro doc hdoc hid
      have hf := Store.Collection.mem_docs.mp hdoc
      rw [hid] at hf
      obtain rfl := Option.some.inj (h.stored.symm.trans hf)
      exact undated
    · intro _ m doc _ hdoc hexpired hid
      obtain ⟨t, hdate, -⟩ := MapVC.expired_iff.mp hexpired
      have hnone := hdoc hid
      rw [getTimestamp, hdate] at hnone
      cases hnone
  · refine step_aims move h.missed ?_
    rintro coll p doc hdoc rfl hid
    obtain ⟨hf, hplace⟩ := Backend.mem_getDocuments.mp hdoc
    rw [hid] at hf
    obtain rfl := Option.some.inj (h.stored.symm.trans hf)
    rw [getDouble, (Query.holds_atCoordinate.mp hplace).1] at unplaced
    cases unplaced

/-- **A remnant stays for ever.**  A document of `userPlaylists` without a date and a place, as a
write after a deletion leaves it, is never deleted and never changed once nothing on its way
concerns it: until then another tap may still write to it, and another reload delete it. -/
theorem remnant_stays (clear : ∀ j ∈ s.jobs, concerns id j = false) (stored : s.store.doc? .userPlaylists id = some f)
    (undated : getTimestamp f .date = none) (unplaced : getDouble f .latitude = none)
    (hrun : Run (app P) (fun _ _ => True) s ls s') :
    s'.store.doc? .userPlaylists id = some f := by
  have hstart : Remains id f s :=
    ⟨stored, fun j hj => condemns_of_clear (clear j hj), fun j hj => aims_of_clear (clear j hj)⟩
  exact (hrun.invariant (fun _ _ _ h _ move => step_remains undated unplaced h move) hstart).stored

/-- A remnant beside a playlist at the same place as the others. -/
def withRemnant : State where
  store := .of []
    [Function.update (fun _ => none) .hasFound (some (.strings ["ann@mail.org"]))]
    [Dict.fields (Request.userDict "ann" "ann@mail.org" "secret") 0] [⟨"ann@mail.org", "secret"⟩]
  locals _ := .atMap ⟨0, "ann@mail.org"⟩
    (Dict.fields (Request.userDict "ann" "ann@mail.org" "secret") 0)
  jobs := []

/-- The map is reloaded after a year, and a pin is tapped. -/
def reloadAndTap : List Label :=
  [.event 0 (.reloadMapClicked 0), .effect 1 31536000, .deliver 1 31536000,
    .event 0 (.calloutTapped ⟨.fin 0, .fin 0⟩), .effect 2 31536000, .deliver 2 31536000]

theorem withRemnant_stays : ∃ s', Run (app .sample) (fun _ _ => True) withRemnant reloadAndTap s' ∧
    s'.store.doc? .userPlaylists 0 =
      some (Function.update (fun _ => none) .hasFound (some (.strings ["ann@mail.org"]))) := by
  obtain ⟨s', hrun, -⟩ := Run.exists_of_run (P := app .sample) (G := fun _ _ => true)
    (s := withRemnant) (l := reloadAndTap) (Q := fun _ => true) (by decide +kernel)
  have hfree := hrun.mono (H := fun _ _ => True) (fun _ _ _ => trivial)
  exact ⟨s', hfree, remnant_stays (List.forall_mem_nil _) rfl rfl rfl hfree⟩

/-! ### Master playlists -/

/-- The master playlists are those of `b₀`, but for their `hasFound`, and taps write to no others. -/
structure Mastered (b₀ : Backend) (s : State) : Prop where
  there : ∀ id, (s.store.doc? .masterPlaylists id).isSome = (b₀.doc? .masterPlaylists id).isSome
  fields : ∀ id k, k ≠ .hasFound →
    s.store.field .masterPlaylists id k = b₀.field .masterPlaylists id k
  aimed : ∀ j ∈ s.jobs, Aims (fun coll id => coll = .masterPlaylists →
    (b₀.doc? .masterPlaylists id).isSome = true) j

theorem exec_masterPlaylist (r : Request) (m : ℤ) (b : Backend) (id : ℕ) :
    (r.operation.exec P m b).1.doc? .masterPlaylists id = b.doc? .masterPlaylists id ∨
      ∃ l email, r = .storeHasFound .masterPlaylists id l email := by
  rcases exec_firestore r.operation P m b with
    ⟨coll, id', data, ho⟩ | ⟨coll, data, ho⟩ | ⟨coll, id', ho⟩ | hsame
  · by_cases hhand : CollectionName.masterPlaylists = coll ∧ id = id'
    · obtain ⟨rfl, rfl⟩ := hhand
      rcases setData_cases ho with ⟨l, email, hr, -⟩ | ⟨hcoll, -⟩
      · exact .inr ⟨l, email, hr⟩
      · cases hcoll
    · rw [ho, doc?_setData, if_neg hhand]
      exact .inl rfl
  · rw [ho, doc?_addDocument, if_neg]
    · exact .inl rfl
    · rintro ⟨rfl, -⟩
      rcases addDocument_cases ho with ⟨_, _, _, _, _, -, hcoll, -⟩ | ⟨hcoll, -⟩
      · cases hcoll
      · cases hcoll
  · rw [ho, doc?_deleteDocument, if_neg]
    · exact .inl rfl
    · rintro ⟨rfl, -⟩
      rcases deleteDocument_cases ho with hr | hcoll
      · rw [hr] at ho
        cases ho
      · cases hcoll
  · rw [Backend.doc?, hsame]
    exact .inl rfl

theorem step_mastered {b₀ : Backend} (h : Mastered b₀ s) (move : Step (app P) s ℓ s') :
    Mastered b₀ s' := by
  have haimed : ∀ j ∈ s'.jobs, Aims (fun coll id => coll = .masterPlaylists →
      (b₀.doc? .masterPlaylists id).isSome = true) j := by
    refine step_aims move h.aimed ?_
    rintro coll p doc hdoc rfl
    rw [← h.there]
    have hf : s.store.doc? .masterPlaylists doc.id = some doc.data :=
      (Backend.mem_getDocuments.mp hdoc).1
    rw [hf]
    rfl
  cases move with
  | @effect js₁ js₂ j m split waiting =>
    refine ⟨fun id => ?_, fun id k hk => ?_, haimed⟩
    · rcases exec_masterPlaylist (P := P) j.request m s.store id with hsame | ⟨l, email, hr⟩
      · exact (congrArg Option.isSome hsame).trans (h.there id)
      · have hj := h.aimed j (mem_of_split split)
        obtain ⟨c, r, reply⟩ := j
        cases hr
        rw [hj rfl, State.settle_store, app_exec, doc?_setData, if_pos ⟨rfl, rfl⟩]
        rfl
    · rcases exec_masterPlaylist (P := P) j.request m s.store id with hsame | ⟨l, email, hr⟩
      · refine Eq.trans ?_ (h.fields id k hk)
        rw [State.settle_store, app_exec, Backend.field, hsame]
        rfl
      · refine Eq.trans ?_ (h.fields id k hk)
        rw [State.settle_store, app_exec, hr, field_setData_of_absent]
        rw [Dict.fields_cons, if_neg hk, Dict.fields_nil]
  | event c e live => exact ⟨h.there, h.fields, haimed⟩
  | fail j err split waiting => exact ⟨h.there, h.fields, haimed⟩
  | deliver j m split answered live => exact ⟨h.there, h.fields, haimed⟩

/-- **The master playlists stay.**  In every run that starts with nothing on its way, no master
playlist comes or goes, and no field of one changes but `hasFound`. -/
theorem masters_kept (quiet : s.jobs = []) (hrun : Run (app P) (fun _ _ => True) s ls s') (id : ℕ) :
    (s'.store.doc? .masterPlaylists id).isSome = (s.store.doc? .masterPlaylists id).isSome ∧
    ∀ k, k ≠ .hasFound →
      s'.store.field .masterPlaylists id k = s.store.field .masterPlaylists id k := by
  have hend : Mastered s.store s' := by
    refine hrun.invariant (fun _ _ _ h _ move => step_mastered h move)
      ⟨fun _ => rfl, fun _ _ _ => rfl, ?_⟩
    rw [quiet]
    exact fun j hj => absurd hj List.not_mem_nil
  exact ⟨hend.there id, hend.fields id⟩

def withMaster : State where
  store := .of [Dict.fields (Request.playlistDict "Road" "" "" ⟨.fin 0, .fin 0⟩ MapVC.defaultLink) 0]
    [] [Dict.fields (Request.userDict "ann" "ann@mail.org" "secret") 0] [⟨"ann@mail.org", "secret"⟩]
  locals _ := .atMap ⟨0, "ann@mail.org"⟩
    (Dict.fields (Request.userDict "ann" "ann@mail.org" "secret") 0)
  jobs := []

def tapMaster : List Label :=
  [.event 0 (.calloutTapped ⟨.fin 0, .fin 0⟩), .effect 0 0, .deliver 0 0, .effect 1 0]

theorem withMaster_kept : ∃ s', Run (app .sample) (fun _ _ => True) withMaster tapMaster s' ∧
    s'.store.hasFound .masterPlaylists 0 = ["ann@mail.org"] ∧
    (s'.store.doc? .masterPlaylists 0).isSome = (withMaster.store.doc? .masterPlaylists 0).isSome ∧
    ∀ k, k ≠ .hasFound →
      s'.store.field .masterPlaylists 0 k = withMaster.store.field .masterPlaylists 0 k := by
  obtain ⟨s', hrun, hend⟩ := Run.exists_of_run (P := app .sample) (G := fun _ _ => true)
    (s := withMaster) (l := tapMaster)
    (Q := fun s' => s'.store.hasFound .masterPlaylists 0 = ["ann@mail.org"]) (by decide +kernel)
  have hfree := hrun.mono (H := fun _ _ => True) (fun _ _ _ => trivial)
  exact ⟨s', hfree, of_decide_eq_true hend, masters_kept rfl hfree 0⟩

end SpotiFriend

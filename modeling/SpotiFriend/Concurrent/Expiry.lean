import Mathlib.Algebra.Order.Group.Int
import SpotiFriend.Async.Clock
import SpotiFriend.Async.Jobs
import SpotiFriend.Spec.Calls
import SpotiFriend.Spec.Reload

/-!
# Playlists that have not expired

A reload deletes what its query result shows as expired, at the clock of its device and some
time after the query.  `Condemns` is what is known of the deletions on their way and of the
results that decide on them.

* `step_condemns`: a move of any kind keeps it;
* `step_lasting`: a move after a playlist was created;
* `live_kept`: no playlist is removed in its first seven days, and its fields stay.
-/

namespace SpotiFriend

open Async SpotiFriend.Action MapVC

/-- The day difference is the number of whole periods of 24 hours, each of `day` ticks. -/
structure WholeDays (P : Platform) (day : ℤ) : Prop where
  pos : 0 < day
  elapsed : ∀ t t', t ≤ t' → P.days t t' = (t' - t) / day
  ahead : ∀ t t', t' < t → P.days t t' ≤ 0

/-- The deletions are of IDs that are `old`, and the query results show documents that are
`seen`. -/
def Condemns (old : ℕ → Prop) (seen : Doc → Prop) : Job → Prop
  | ⟨_, .deleteOldPlaylist id, _⟩ => old id
  | ⟨_, .addUserAnnotations _, some (.ok docs)⟩ => ∀ doc ∈ docs, seen doc
  | _ => True

/-- The times at which the users' playlist `id` is removed. -/
def removals (P : Platform) (id : ℕ) (s : State) : Label → List ℤ
  | .effect i m =>
    if (s.store.doc? .userPlaylists id).isSome ∧ (step (app P) s (.effect i m)).any
      (fun s' => (s'.store.doc? .userPlaylists id).isNone) then [m] else []
  | _ => []

/-- The playlist is there, and all but its `hasFound` is as it was created. -/
def AsCreated (f : Fields) (id : ℕ) (b : Backend) : Prop :=
  (b.doc? .userPlaylists id).isSome ∧
    ∀ k, k ≠ .hasFound → b.field .userPlaylists id k = f k

/-- What is known at the time `T` of a playlist that was created at the time `t`, when it
has been removed at the times `h`. -/
structure Lasting (P : Platform) (id : ℕ) (t : ℤ) (f : Fields) (h : List ℤ) (T : ℤ) (s : State) :
    Prop where
  removed : ∀ m ∈ h, 7 < P.days t m
  kept : h = [] → AsCreated f id s.store
  dated : ∀ t', s.store.field .userPlaylists id .date = some (.timestamp t') → t' = t
  used : id < (s.store.firestore .userPlaylists).next
  jobs : ∀ j ∈ s.jobs, Condemns (fun id' => id' = id → 7 < P.days t T)
    (fun doc => doc.id = id → ∀ t', doc.data .date = some (.timestamp t') → t' = t) j

variable {P : Platform} {s s₀ s₁ s₂ s₃ s' : State} {ℓ : Label} {ls₁ ls₂ : List Label} {id : ℕ}
  {day t T m : ℤ} {f : Fields} {old old' : ℕ → Prop} {seen seen' : Doc → Prop}

theorem WholeDays.mono (h : WholeDays P day) (hold : 7 < P.days t m) (hm : m ≤ T) :
    7 < P.days t T := by
  rcases Int.lt_or_le m t with hlt | hle
  · have := h.ahead t m hlt
    omega
  · rw [h.elapsed t m hle] at hold
    rw [h.elapsed t T (hle.trans hm)]
    exact hold.trans_le (Int.ediv_le_ediv h.pos (by omega))

/-! ### Deletions and query results -/

theorem leads_deleteOldPlaylist {r : Request} (h : Leads r (.deleteOldPlaylist id)) :
    ∃ map, r = .addUserAnnotations map := by
  cases r <;> simp_all [Leads]

theorem condemns_resume {c : ℕ} {r : Request} {a : Except String r.Answer} {d : Device}
    (live : d.crashed = false) (h : Condemns old seen ⟨c, r, some a⟩)
    (hexpired : ∀ doc, seen doc → expired P m doc = true → old' doc.id) :
    ∀ r' ∈ (resume P r m a d).2, Condemns old' seen' (.issue c r') := by
  intro r' hr'
  cases r' with
  | deleteOldPlaylist id =>
    obtain ⟨map, rfl⟩ := leads_deleteOldPlaylist (resume_leads P r m a d _ hr')
    change Except String (List Doc) at a
    cases a with
    | error err => exact absurd hr' List.not_mem_nil
    | ok docs =>
      obtain ⟨l, hreply⟩ := addUserAnnotationsReply_apply P map m docs live
      have hreply := congrArg Prod.snd hreply
      change _ ∈ (addUserAnnotationsReply P map m (.ok docs) d).2 at hr'
      rw [hreply] at hr'
      obtain ⟨doc, hdoc, hid⟩ := List.mem_map.mp hr'
      obtain ⟨hdoc, hold⟩ := List.mem_filter.mp hdoc
      cases hid
      exact hexpired doc (h doc hdoc) hold
  | _ => trivial

theorem condemns_start {c : ℕ} {e : Event} {d : Device} (live : d.crashed = false) :
    ∀ r ∈ (start e d).2, Condemns old seen (.issue c r) := by
  intro r hr
  have hopens := start_opens e live r hr
  cases r with
  | deleteOldPlaylist id => cases hopens
  | _ => trivial

theorem Condemns.of_deletion {j : Job} (h : Condemns old seen j)
    (hj : j.request = .deleteOldPlaylist id) : old id := by
  obtain ⟨c, r, reply⟩ := j
  cases hj
  exact h

theorem Condemns.mono {j : Job} (h : Condemns old seen j) (hold : ∀ id, old id → old' id)
    (hseen : ∀ doc, seen doc → seen' doc) : Condemns old' seen' j := by
  obtain ⟨c, r, reply⟩ := j
  cases r with
  | deleteOldPlaylist id => exact hold id h
  | addUserAnnotations map =>
    change Option (Except String (List Doc)) at reply
    rcases reply with _ | _ | docs
    · trivial
    · trivial
    · exact fun doc hdoc => hseen doc (h doc hdoc)
  | _ => trivial

/-- A call and its answer: a query shows the documents that are there. -/
theorem Condemns.answer {j : Job} {b : Backend} (h : Condemns old seen j)
    (hquery : ∀ doc ∈ b.docs .userPlaylists, seen doc) :
    Condemns old seen (j.answer (j.request.operation.exec P m b).2) := by
  obtain ⟨c, r, reply⟩ := j
  cases r with
  | deleteOldPlaylist id => exact h
  | addUserAnnotations map =>
    intro doc hdoc
    rw [Backend.getDocuments_all] at hdoc
    exact hquery doc hdoc
  | _ => trivial

theorem Condemns.fail {j : Job} {err : String} (h : Condemns old seen j) :
    Condemns old seen (j.answer (.error err)) := by
  obtain ⟨c, r, reply⟩ := j
  cases r with
  | deleteOldPlaylist id => exact h
  | _ => trivial

/-- **A move of any kind**: a deletion is of what has been seen as expired. -/
theorem step_condemns (move : Step (app P) s ℓ s') (h : ∀ j ∈ s.jobs, Condemns old seen j)
    (hold : ∀ id, old id → old' id) (hseen : ∀ doc, seen doc → seen' doc)
    (hquery : ∀ doc ∈ s.store.docs .userPlaylists, seen' doc)
    (hexpired : ∀ i m doc, ℓ = .deliver i m → seen doc → expired P m doc = true → old' doc.id) :
    ∀ j ∈ s'.jobs, Condemns old' seen' j := by
  have hnext : ∀ j ∈ s.jobs, Condemns old' seen' j := fun j hj => (h j hj).mono hold hseen
  refine move.jobs (φ := fun _ j => Condemns old' seen' j) hnext ?_ ?_ ?_ ?_
  · exact fun c e _ live => condemns_start (by simpa using live)
  · intro js₁ j js₂ m _ split _
    exact ⟨(hnext j (mem_of_split split)).answer hquery,
      fun j' hj' => hnext j' ((rest_sublist split).subset hj')⟩
  · exact fun js₁ j js₂ err _ split _ => (hnext j (mem_of_split split)).fail
  · intro js₁ j js₂ m a hℓ split answered live
    have hj := h j (mem_of_split split)
    rw [Job.eq_of_reply answered] at hj
    exact condemns_resume (by simpa using live) hj (fun doc => hexpired _ m doc hℓ)

/-! ### What calls do to a playlist -/

theorem deleteDocument_cases {r : Request} {coll : CollectionName}
    (h : r.operation = .deleteDocument coll id) : r = .deleteOldPlaylist id ∨ coll = .userInfo := by
  cases r with
  | deleteOldPlaylist id' =>
    cases h
    exact Or.inl rfl
  | deleteUserInfo id' =>
    cases h
    exact Or.inr rfl
  | _ => cases h

/-- **A call removes a playlist, or leaves all of it but its `hasFound`.** -/
theorem exec_userPlaylist {b : Backend} (r : Request) (m : ℤ)
    (used : id < (b.firestore .userPlaylists).next) :
    (r = .deleteOldPlaylist id ∧ (r.operation.exec P m b).1.doc? .userPlaylists id = none) ∨
      ((b.doc? .userPlaylists id).isSome →
        ((r.operation.exec P m b).1.doc? .userPlaylists id).isSome) ∧
      ∀ k, k ≠ .hasFound → (r.operation.exec P m b).1.field .userPlaylists id k =
        b.field .userPlaylists id k := by
  have hsame : ∀ {b' : Backend}, b'.doc? .userPlaylists id = b.doc? .userPlaylists id →
      ((b.doc? .userPlaylists id).isSome → (b'.doc? .userPlaylists id).isSome) ∧
      ∀ k, k ≠ .hasFound → b'.field .userPlaylists id k = b.field .userPlaylists id k := by
    intro b' h
    refine ⟨fun hsome => by rw [h]; exact hsome, fun k _ => ?_⟩
    rw [Backend.field, h]
    rfl
  rcases exec_firestore r.operation P m b with
    ⟨coll, id', data, ho⟩ | ⟨coll, data, ho⟩ | ⟨coll, id', ho⟩ | hfirestore
  · rw [ho]
    rcases setData_cases ho with ⟨l, email, -, rfl⟩ | ⟨rfl, -⟩
    · refine Or.inr ⟨fun hsome => ?_, fun k hk => ?_⟩
      · rw [doc?_setData]
        split
        · rfl
        · exact hsome
      · refine field_setData_of_absent ?_
        rw [Dict.fields_cons, if_neg hk, Dict.fields_nil]
    · exact Or.inr (hsame (by rw [doc?_setData, if_neg (fun h => absurd h.1 (by decide))]))
  · rw [ho]
    refine Or.inr (hsame ?_)
    rw [doc?_addDocument, if_neg]
    rintro ⟨rfl, rfl⟩
    exact Nat.lt_irrefl _ used
  · by_cases hid : coll = .userPlaylists ∧ id = id'
    · obtain ⟨rfl, rfl⟩ := hid
      rcases deleteDocument_cases ho with hr | hcoll
      · refine Or.inl ⟨hr, ?_⟩
        rw [ho, doc?_deleteDocument, if_pos ⟨rfl, rfl⟩]
      · cases hcoll
    · refine Or.inr (hsame ?_)
      rw [ho, doc?_deleteDocument, if_neg (fun h => hid ⟨h.1.symm, h.2⟩)]
  · exact Or.inr (hsame (by rw [Backend.doc?, hfirestore]; rfl))

theorem step_next (move : Step (app P) s ℓ s') (coll : CollectionName) :
    (s.store.firestore coll).next ≤ (s'.store.firestore coll).next := by
  cases move with
  | event c e live => exact Nat.le_refl _
  | effect j m split waiting => exact next_exec _ P m s.store coll
  | fail j err split waiting => exact Nat.le_refl _
  | deliver j m split answered live => exact Nat.le_refl _

/-! ### Before the playlist is created -/

def Known (s : State) : Prop :=
  ∀ j ∈ s.jobs, Condemns (· < (s.store.firestore .userPlaylists).next)
    (fun doc => doc.id < (s.store.firestore .userPlaylists).next) j

theorem step_known (h : Known s) (move : Step (app P) s ℓ s') : Known s' := by
  have hnext := step_next move .userPlaylists
  refine step_condemns move h (fun id hid => hid.trans_le hnext) (fun doc hdoc => hdoc.trans_le hnext)
    (fun doc hdoc => ?_) (fun _ _ doc _ hdoc _ => hdoc.trans_le hnext)
  exact (Store.Collection.lt_next (Store.Collection.mem_docs.mp hdoc)).trans_le hnext

/-! ### From the creation on -/

theorem removals_effect {i : ℕ} (move : Step (app P) s (.effect i m) s') :
    removals P id s (.effect i m) =
      if (s.store.doc? .userPlaylists id).isSome ∧ (s'.store.doc? .userPlaylists id).isNone then [m]
      else [] := by
  rw [removals, step_iff (app P) |>.mpr move]
  rfl

theorem Lasting.step_jobs {h : List ℤ} (hlast : Lasting P id t f h T s) (hdays : WholeDays P day)
    (intime : onTime T ℓ = true) (move : Step (app P) s ℓ s') :
    ∀ j ∈ s'.jobs, Condemns (fun id' => id' = id → 7 < P.days t (tick T ℓ))
      (fun doc => doc.id = id → ∀ t', doc.data .date = some (.timestamp t') → t' = t) j := by
  refine step_condemns move hlast.jobs
    (fun id' hold hid => hdays.mono (hold hid) (le_tick intime)) (fun _ hdoc => hdoc) ?_ ?_
  · intro doc hdoc hid t' hdate
    refine hlast.dated t' ?_
    rw [Backend.field, ← hid, Backend.doc?, Store.Collection.mem_docs.mp hdoc]
    exact hdate
  · intro i m doc hℓ hdoc hexpired hid
    obtain ⟨t', hdate, hold⟩ := expired_iff.mp hexpired
    obtain rfl := hdoc hid t' hdate
    rw [hℓ]
    exact hdays.mono hold (le_max_right T m)

/-- **A move in time** after a playlist was created. -/
theorem step_lasting {h : List ℤ} (hdays : WholeDays P day) (hlast : Lasting P id t f h T s)
    (intime : onTime T ℓ = true) (move : Step (app P) s ℓ s') :
    Lasting P id t f (h ++ removals P id s ℓ) (tick T ℓ) s' := by
  have hjobs := hlast.step_jobs hdays intime move
  have hused : id < (s'.store.firestore .userPlaylists).next :=
    hlast.used.trans_le (step_next move .userPlaylists)
  -- only an effect changes the services
  have hidle : s'.store = s.store → removals P id s ℓ = [] →
      Lasting P id t f (h ++ removals P id s ℓ) (tick T ℓ) s' := by
    intro hstore hlog
    rw [hlog, List.append_nil]
    exact ⟨hlast.removed, by rw [hstore]; exact hlast.kept, by rw [hstore]; exact hlast.dated, hused,
      hjobs⟩
  cases move with
  | event c e live => exact hidle rfl rfl
  | fail j err split waiting => exact hidle rfl rfl
  | deliver j m split answered live => exact hidle rfl rfl
  | @effect js₁ js₂ j m split waiting =>
    have hlog : removals P id s (.effect js₁.length m) = _ :=
      removals_effect (Step.effect (P := app P) j m split waiting)
    rw [hlog]
    rcases exec_userPlaylist (P := P) j.request m hlast.used with ⟨hj, hgone⟩ | ⟨hsome, hfields⟩
    · have hold := hdays.mono ((hlast.jobs j (mem_of_split split)).of_deletion hj rfl)
        (of_decide_eq_true intime)
      refine ⟨fun m' hm' => ?_, fun hh => ?_, fun t' hdate => ?_, hused, hjobs⟩
      · rcases List.mem_append.mp hm' with hm' | hm'
        · exact hlast.removed m' hm'
        · split at hm'
          · rw [List.mem_singleton.mp hm']
            exact hold
          · cases hm'
      · obtain ⟨hh, hremoval⟩ := List.append_eq_nil_iff.mp hh
        rw [State.settle_store, if_pos ⟨(hlast.kept hh).1, by rw [hgone]; rfl⟩] at hremoval
        cases hremoval
      · rw [State.settle_store, Backend.field, hgone] at hdate
        cases hdate
    · have hnone : ¬ ((s.store.doc? .userPlaylists id).isSome ∧ Option.isNone
          (((j.request.operation.exec P m s.store).1).doc? .userPlaylists id)) := by
        rintro ⟨hbefore, hafter⟩
        have := hsome hbefore
        rw [Option.isNone_iff_eq_none] at hafter
        rw [hafter] at this
        cases this
      rw [State.settle_store, if_neg hnone, List.append_nil]
      refine ⟨hlast.removed, fun hh => ?_, fun t' hdate => ?_, hused, hjobs⟩
      · exact ⟨hsome (hlast.kept hh).1, fun k hk => (hfields k hk).trans ((hlast.kept hh).2 k hk)⟩
      · exact hlast.dated t' ((hfields .date (by decide)).symm.trans hdate)

/-- A playlist that has just been created: nothing on its way is about it. -/
theorem lasting_created {c i : ℕ} {title author email : String} {p : Coordinate} {link : String}
    (known : Known s₁)
    (request : s₁.jobs[i]? = some ⟨c, .addPlaylist title author email p link, none⟩)
    (created : Step (app P) s₁ (.effect i t) s₂) :
    Lasting P (s₁.store.firestore .userPlaylists).next t
      (Dict.fields (Request.playlistDict title author email p link) t) [] t s₂ := by
  have hjobs : ∀ j ∈ s₂.jobs, Condemns
      (fun id => id = (s₁.store.firestore .userPlaylists).next → 7 < P.days t t)
      (fun doc => doc.id = (s₁.store.firestore .userPlaylists).next →
        ∀ t', doc.data .date = some (.timestamp t') → t' = t) j := by
    refine step_condemns created known (fun id hlt hid => absurd hlt (hid ▸ Nat.lt_irrefl _))
      (fun doc hlt hid => absurd hlt (hid ▸ Nat.lt_irrefl _)) (fun doc hdoc hid => ?_)
      (fun _ _ _ hℓ => nomatch hℓ)
    have hlt := Store.Collection.lt_next (Store.Collection.mem_docs.mp hdoc)
    exact absurd hlt (hid ▸ Nat.lt_irrefl _)
  cases created with
  | @effect js₁ js₂ j m split waiting =>
    obtain rfl := Option.some.inj ((getElem?_split split).symm.trans request)
    refine ⟨nofun, fun _ => ⟨?_, fun k _ => ?_⟩, fun t' hdate => ?_, ?_, hjobs⟩
    · rw [State.settle_store, app_exec, doc?_addDocument, if_pos ⟨rfl, rfl⟩]
      rfl
    · rw [State.settle_store, app_exec, field_addDocument, if_pos ⟨rfl, rfl⟩]
    · rw [State.settle_store, app_exec, field_addDocument, if_pos ⟨rfl, rfl⟩] at hdate
      cases hdate
      rfl
    · exact Nat.lt_succ_self _

/-- **Live playlists are never lost.**  A playlist is removed only at times that are more than
seven days after its date, and until then all its fields but `hasFound` are as it was created. -/
theorem live_kept {c i : ℕ} {title author email : String} {p : Coordinate} {link : String}
    (hdays : WholeDays P day) (quiet : s₀.jobs = [])
    (before : Run (app P) (fun _ _ => True) s₀ ls₁ s₁)
    (request : s₁.jobs[i]? = some ⟨c, .addPlaylist title author email p link, none⟩)
    (created : Step (app P) s₁ (.effect i t) s₂)
    (after : Run (app P) (fun _ _ => True) s₂ ls₂ s₃) (intime : clocked t ls₂ = true)
    (hid : id = (s₁.store.firestore .userPlaylists).next) :
    (∀ m ∈ collect (app P) (removals P id) s₂ ls₂, 7 < P.days t m) ∧
      (collect (app P) (removals P id) s₂ ls₂ = [] →
        AsCreated (Dict.fields (Request.playlistDict title author email p link) t) id s₃.store) := by
  subst hid
  have hknown : Known s₁ := by
    refine before.invariant (fun _ _ _ h _ move => step_known h move) ?_
    rw [Known, quiet]
    exact fun j hj => absurd hj List.not_mem_nil
  obtain ⟨T, hlast⟩ := after.clocked_history
    (fun h T s ℓ s' hlast _ intime move => step_lasting hdays hlast intime move) intime
    (lasting_created hknown request created)
  rw [List.nil_append] at hlast
  exact ⟨hlast.removed, hlast.kept⟩

def composing : State where
  store := .of [] [] [] []
  locals _ := { Device.launched with
    text := fun _ field => match field with
      | .titleTextField => "Road"
      | .linkTextField => defaultLink
      | _ => "" }
  jobs := []

def adding : State :=
  composing.proceed 0 [] (composing.locals 0,
    [.addPlaylist "Road" "" "" ⟨.fin 0, .fin 0⟩ defaultLink, .createdUserInfo "" 1])

def added : State :=
  adding.settle ((Operation.addDocument .userPlaylists
      (Request.playlistDict "Road" "" "" ⟨.fin 0, .fin 0⟩ defaultLink)).exec .sample 0 adding.store).1
    [⟨0, .addPlaylist "Road" "" "" ⟨.fin 0, .fin 0⟩ defaultLink, some (.ok ())⟩,
      ⟨0, .createdUserInfo "" 1, none⟩]

/-- Another user reloads the map at the end of the seventh day. -/
def lateReload : List Label :=
  [.event 1 (.reloadMapClicked 0), .effect 3 691199, .deliver 3 691199]

theorem wholeDays_sample : WholeDays .sample 86400 where
  pos := by decide
  elapsed _ _ _ := rfl
  ahead t t' h := by
    show (t' - t) / 86400 ≤ 0
    omega

theorem road_kept : ∃ s₃ : State, Run (app .sample) (fun _ _ => True) added lateReload s₃ ∧
    AsCreated (Dict.fields (Request.playlistDict "Road" "" "" ⟨.fin 0, .fin 0⟩ defaultLink) 0) 0
      s₃.store := by
  have hclick : Step (app .sample) composing (.event 0 (.addPlaylistClicked 0)) adding := by
    have hadding := AddPlaylistVC.addPlaylistClicked_accepted (d := composing.locals 0) rfl
      (show AddPlaylistVC.accepts _ 0 = true by decide +kernel)
    have move := Step.event (P := app .sample) (s := composing) 0 (.addPlaylistClicked 0) rfl
    rw [show (app .sample).start (.addPlaylistClicked 0) (composing.locals 0) = _ from hadding] at move
    exact move
  obtain ⟨s₃, hrun, hkept⟩ := Run.exists_of_run (P := app .sample) (G := fun _ _ => true) (s := added)
    (l := lateReload) (Q := fun _ => collect (app .sample) (removals .sample 0) added lateReload = [])
    (by decide +kernel)
  have hafter := hrun.mono (H := fun _ _ => True) (fun _ _ _ => trivial)
  have hbefore : Run (app .sample) (fun _ _ => True) composing [.event 0 (.addPlaylistClicked 0)] adding :=
    .prepend trivial hclick (.nil _)
  have hcreated := Step.effect (P := app .sample) _ 0
    (show adding.jobs = [] ++ (adding.jobs.head (by decide) :: adding.jobs.tail) from rfl) rfl
  exact ⟨s₃, hafter, (live_kept wholeDays_sample (show composing.jobs = [] from rfl) hbefore
    (show adding.jobs[0]? = _ from rfl) hcreated hafter rfl rfl).2 (of_decide_eq_true hkept)⟩

end SpotiFriend

import SpotiFriend.Async.Sequential
import SpotiFriend.Spec.Reload

/-!
# A reload by itself

The two loops of a reload, with their queries and the deletions that the second one makes,
come to a filter of the documents.  A reload has two parts that do not wait for each other:
`StaticPart` and `UserPart` say where each can be.

* `step_reloading`: a move of either part;
* `reload_settles`: what a completed reload leaves, the pins and the documents;
* `reload_shows`: the same for two reloads, one after the other.
-/

namespace SpotiFriend

open Async SpotiFriend.Action MapVC

/-- No event, no failure, and every result is handled at the time `now`. -/
def undisturbed (now : ℤ) : Label → Bool
  | .event _ _ => false
  | .effect _ _ => true
  | .fail _ _ => false
  | .deliver _ m => m = now

/-- Where `addStaticAnnotations` is, with the pins that it has put on the map. -/
inductive StaticPart (c : ℕ) (map : VC) (docs : List Doc) : List Job → List Annotation → Prop
  | asking : StaticPart c map docs [⟨c, .addStaticAnnotations map, none⟩] []
  | asked : StaticPart c map docs [⟨c, .addStaticAnnotations map, some (.ok docs)⟩] []
  | shown : StaticPart c map docs [] (docs.filterMap staticPin)

/-- What is known while expired documents are removed: `left` are those that are still there. -/
structure Removing (P : Platform) (now : ℤ) (c : ℕ) (docs : List Doc) (js : List Job)
    (left : List Doc) : Prop where
  jobs : ∀ j ∈ js, ∃ doc ∈ docs, expired P now doc = true ∧
    ∃ reply, j = ⟨c, .deleteOldPlaylist doc.id, reply⟩
  kept : left.filter (fun doc => !expired P now doc) = docs.filter (fun doc => !expired P now doc)
  sub : left ⊆ docs
  waits : ∀ doc ∈ left, expired P now doc = true → ⟨c, .deleteOldPlaylist doc.id, none⟩ ∈ js

/-- Where `addUserAnnotations` is, with the documents that are there and the pins that it has
put on the map. -/
inductive UserPart (P : Platform) (now : ℤ) (c : ℕ) (map : VC) (location : Option Coordinate)
    (mapRadius : Double) (docs : List Doc) : List Job → List Doc → List Annotation → Prop
  | asking : UserPart P now c map location mapRadius docs
      [⟨c, .addUserAnnotations map, none⟩] docs []
  | asked : UserPart P now c map location mapRadius docs
      [⟨c, .addUserAnnotations map, some (.ok docs)⟩] docs []
  | shown (js : List Job) (left : List Doc) (removing : Removing P now c docs js left) :
      UserPart P now c map location mapRadius docs js left
        (docs.filterMap (userPin P now location mapRadius))

/-- A reload of the map on the device `c`, from the services `b₀` on. -/
structure Reloading (P : Platform) (now : ℤ) (c : ℕ) (map : VC) (location : Option Coordinate)
    (mapRadius : Double) (b₀ : Backend) (s : State) : Prop where
  parts : ∃ js₁ js₂ pins₁ pins₂, s.jobs.Perm (js₁ ++ js₂) ∧
    StaticPart c map (b₀.docs .masterPlaylists) js₁ pins₁ ∧
    UserPart P now c map location mapRadius (b₀.docs .userPlaylists) js₂
      (s.store.docs .userPlaylists) pins₂ ∧
    ((s.locals c).annotations map).Perm (pins₁ ++ pins₂)
  others : s.store = b₀.setCollection .userPlaylists (s.store.firestore .userPlaylists)
  location : (s.locals c).userLocation = location
  mapRadius : (s.locals c).sharedUserInfo.mapRadius = mapRadius
  live : (s.locals c).crashed = false

variable {P : Platform} {now : ℤ} {c : ℕ} {map : VC} {location : Option Coordinate}
  {mapRadius : Double} {b b₀ : Backend} {s s' s'' : State} {ℓ : Label} {j : Job}
  {docs left : List Doc} {js : List Job} {pins : List Annotation}

theorem docs_inj {coll : CollectionName} {doc doc' : Doc} (h : doc ∈ b.docs coll)
    (h' : doc' ∈ b.docs coll) (hid : doc.id = doc'.id) : doc = doc' := by
  have hdata := Store.Collection.mem_docs.mp h
  rw [hid, Store.Collection.mem_docs.mp h'] at hdata
  cases doc
  cases doc'
  simp only at hid hdata
  rw [hid, Option.some.inj hdata]

theorem docs_delete (id : ℕ) (m : ℤ) :
    ((Operation.deleteDocument .userPlaylists id).exec P m b).1.docs .userPlaylists =
      (b.docs .userPlaylists).filter (fun doc => doc.id ≠ id) := by
  rw [Backend.docs, Operation.exec, Backend.setCollection_firestore, Function.update_self,
    Store.Collection.docs_delete]
  rfl

/-! ### Removing expired documents -/

namespace Removing

theorem start : Removing P now c docs
    ((docs.filter (expired P now)).map (fun doc => ⟨c, .deleteOldPlaylist doc.id, none⟩)) docs := by
  refine ⟨fun j hj => ?_, rfl, fun _ h => h, fun doc hdoc hold => ?_⟩
  · obtain ⟨doc, hdoc, rfl⟩ := List.mem_map.mp hj
    obtain ⟨hdoc, hold⟩ := List.mem_filter.mp hdoc
    exact ⟨doc, hdoc, hold, none, rfl⟩
  · exact List.mem_map_of_mem (f := fun doc : Doc => (⟨c, .deleteOldPlaylist doc.id, none⟩ : Job))
      (List.mem_filter.mpr ⟨hdoc, hold⟩)

theorem perm {js' : List Job} (h : Removing P now c docs js left) (hperm : js.Perm js') :
    Removing P now c docs js' left :=
  ⟨fun j hj => h.jobs j (hperm.mem_iff.mpr hj), h.kept, h.sub,
    fun doc hdoc hold => hperm.mem_iff.mp (h.waits doc hdoc hold)⟩

/-- A deletion takes effect: no document that is not expired goes with it. -/
theorem effect {id : ℕ} {reply : Option (Except String Unit)}
    (h : Removing P now c docs (⟨c, .deleteOldPlaylist id, none⟩ :: js) left)
    (hinj : ∀ doc ∈ docs, ∀ doc' ∈ docs, doc.id = doc'.id → doc = doc') :
    Removing P now c docs (⟨c, .deleteOldPlaylist id, reply⟩ :: js)
      (left.filter (fun doc => doc.id ≠ id)) := by
  obtain ⟨doc₀, hdoc₀, hold₀, reply₀, hself⟩ := h.jobs _ List.mem_cons_self
  cases hself
  refine ⟨fun j hj => ?_, ?_, fun doc hdoc => h.sub (List.mem_filter.mp hdoc).1,
    fun doc hdoc hold => ?_⟩
  · rcases List.mem_cons.mp hj with rfl | hj
    · exact ⟨doc₀, hdoc₀, hold₀, reply, rfl⟩
    · exact h.jobs j (List.mem_cons_of_mem _ hj)
  · rw [← h.kept, List.filter_filter]
    refine List.filter_congr (fun doc hdoc => ?_)
    by_cases hid : doc.id = doc₀.id
    · rw [hinj doc (h.sub hdoc) doc₀ hdoc₀ hid, hold₀]
      rfl
    · rw [decide_eq_true hid, Bool.and_true]
  · obtain ⟨hdoc, hid⟩ := List.mem_filter.mp hdoc
    rcases List.mem_cons.mp (h.waits doc hdoc hold) with hsame | hmem
    · have hid' : doc.id = doc₀.id := Request.deleteOldPlaylist.inj (congrArg Job.request hsame)
      exact absurd hid' (of_decide_eq_true hid)
    · exact List.mem_cons_of_mem _ hmem

theorem deliver {id : ℕ} {reply : Except String Unit}
    (h : Removing P now c docs (⟨c, .deleteOldPlaylist id, some reply⟩ :: js) left) :
    Removing P now c docs js left := by
  refine ⟨fun j hj => h.jobs j (List.mem_cons_of_mem _ hj), h.kept, h.sub, fun doc hdoc hold => ?_⟩
  rcases List.mem_cons.mp (h.waits doc hdoc hold) with hsame | hmem
  · cases hsame
  · exact hmem

theorem done (h : Removing P now c docs [] left) :
    left = docs.filter (fun doc => !expired P now doc) := by
  rw [← h.kept, List.filter_eq_self.mpr (fun doc hdoc => ?_)]
  rw [Bool.not_eq_true']
  by_contra hold
  exact absurd (h.waits doc hdoc (by simpa using hold)) List.not_mem_nil

end Removing

/-! ### The two parts -/

namespace StaticPart

theorem perm {js' : List Job} (h : StaticPart c map docs js pins) (hperm : js.Perm js') :
    StaticPart c map docs js' pins := by
  cases h with
  | asking => exact List.perm_singleton.mp hperm.symm ▸ .asking
  | asked => exact List.perm_singleton.mp hperm.symm ▸ .asked
  | shown => exact List.perm_nil.mp hperm.symm ▸ .shown

theorem effect (h : StaticPart c map docs (j :: js) pins) (waiting : j.reply = none) (m : ℤ)
    (hdocs : b.docs .masterPlaylists = docs) : (j.request.operation.exec P m b).1 = b ∧
      StaticPart c map docs (j.answer (j.request.operation.exec P m b).2 :: js) pins := by
  cases h with
  | asking =>
    refine ⟨rfl, ?_⟩
    show StaticPart c map docs [⟨c, .addStaticAnnotations map,
      some (.ok (b.getDocuments (.all .masterPlaylists)))⟩] []
    rw [Backend.getDocuments_all, hdocs]
    exact .asked
  | asked => cases waiting

theorem deliver {d : Device} {a : Except String j.request.Answer}
    (h : StaticPart c map docs (j :: js) pins) (answered : j.reply = some a)
    (live : d.crashed = false) (m : ℤ) : j.client = c ∧ js = [] ∧ pins = [] ∧
      resume P j.request m a d = (withPins d map (docs.filterMap staticPin) d.alerts, []) := by
  cases h with
  | asking => cases answered
  | asked =>
    obtain rfl := Option.some.inj answered
    exact ⟨rfl, rfl, rfl, addStaticAnnotationsReply_apply _ docs live⟩

end StaticPart

namespace UserPart

theorem perm {js' : List Job} (h : UserPart P now c map location mapRadius docs js left pins)
    (hperm : js.Perm js') : UserPart P now c map location mapRadius docs js' left pins := by
  cases h with
  | asking => exact List.perm_singleton.mp hperm.symm ▸ .asking
  | asked => exact List.perm_singleton.mp hperm.symm ▸ .asked
  | shown js left removing => exact .shown js' left (removing.perm hperm)

theorem effect (h : UserPart P now c map location mapRadius docs (j :: js)
      (b.docs .userPlaylists) pins) (waiting : j.reply = none) (m : ℤ)
    (hinj : ∀ doc ∈ docs, ∀ doc' ∈ docs, doc.id = doc'.id → doc = doc') :
    (j.request.operation.exec P m b).1 = b.setCollection .userPlaylists
        ((j.request.operation.exec P m b).1.firestore .userPlaylists) ∧
      UserPart P now c map location mapRadius docs
        (j.answer (j.request.operation.exec P m b).2 :: js)
        ((j.request.operation.exec P m b).1.docs .userPlaylists) pins := by
  generalize hleft : b.docs .userPlaylists = left at h
  have hsame : b = b.setCollection .userPlaylists (b.firestore .userPlaylists) := by
    rw [Backend.setCollection, Function.update_eq_self]
  cases h with
  | asking =>
    refine ⟨hsame, ?_⟩
    show UserPart P now c map location mapRadius _ [⟨c, .addUserAnnotations map,
      some (.ok (b.getDocuments (.all .userPlaylists)))⟩] (b.docs .userPlaylists) []
    rw [Backend.getDocuments_all, hleft]
    exact .asked
  | asked => cases waiting
  | shown _ _ removing =>
    obtain ⟨doc, hdoc, hold, reply, rfl⟩ := removing.jobs j List.mem_cons_self
    obtain rfl : reply = none := waiting
    refine ⟨?_, .shown _ _ ?_⟩
    · show b.setCollection .userPlaylists _ = b.setCollection .userPlaylists
        ((b.setCollection .userPlaylists _).firestore .userPlaylists)
      rw [Backend.setCollection_firestore, Function.update_self]
    · show Removing P now c docs _
        (((Operation.deleteDocument .userPlaylists doc.id).exec P m b).1.docs .userPlaylists)
      rw [docs_delete, hleft]
      exact removing.effect hinj

theorem client (h : UserPart P now c map location mapRadius docs (j :: js) left pins) :
    j.client = c := by
  cases h with
  | asking | asked => rfl
  | shown _ _ removing =>
    obtain ⟨doc, -, -, reply, rfl⟩ := removing.jobs j List.mem_cons_self
    rfl

/-- A result is handled; the pins come with the radius that the device has then. -/
theorem deliver {d : Device} {a : Except String j.request.Answer}
    (h : UserPart P now c map location mapRadius docs (j :: js) left pins)
    (answered : j.reply = some a) (live : d.crashed = false)
    (hlocation : d.userLocation = location) : ∃ mapRadius' pins' l rs,
      (mapRadius' = mapRadius ∨ mapRadius' = d.sharedUserInfo.mapRadius) ∧
        resume P j.request now a d = (withPins d map pins' l, rs) ∧
        UserPart P now c map location mapRadius' docs (js ++ rs.map (Job.issue c)) left
          (pins ++ pins') := by
  cases h with
  | asking => cases answered
  | asked =>
    obtain rfl := Option.some.inj answered
    obtain ⟨l, hreply⟩ := addUserAnnotationsReply_apply P map now docs live
    rw [hlocation] at hreply
    refine ⟨_, _, l, _, Or.inr rfl, hreply, .shown _ _ ?_⟩
    rw [List.nil_append, List.map_map]
    exact .start
  | shown _ _ removing =>
    obtain ⟨doc, hdoc, hold, reply, rfl⟩ := removing.jobs j List.mem_cons_self
    change Except String Unit at a
    obtain rfl : reply = some a := answered
    have hremoving : Removing P now c docs (js ++ List.map (Job.issue c) []) left := by
      simpa using removing.deliver
    refine ⟨mapRadius, [], ?_⟩
    rw [List.append_nil]
    cases a with
    | ok _ => exact ⟨d.alerts, [], Or.inl rfl, by rw [withPins_nil]; rfl, .shown _ _ hremoving⟩
    | error err => exact ⟨_, [], Or.inl rfl, by rw [withPins_alerts]; rfl, .shown _ _ hremoving⟩

end UserPart

/-! ### One move -/

/-- **One move** of a reload. -/
theorem step_reloading (h : Reloading P now c map location mapRadius b₀ s)
    (guard : undisturbed now ℓ = true) (move : Step (app P) s ℓ s') :
    Reloading P now c map location mapRadius b₀ s' := by
  obtain ⟨xs, ys, pins₁, pins₂, hjobs, hstatic, huser, hpins⟩ := h.parts
  have hmasters : s.store.docs .masterPlaylists = b₀.docs .masterPlaylists := by
    rw [h.others, Backend.docs, Backend.setCollection_firestore,
      Function.update_of_ne (show CollectionName.masterPlaylists ≠ .userPlaylists from nofun)]
    rfl
  cases move with
  | event c e live => cases guard
  | fail j err split waiting => cases guard
  | @effect js₁ js₂ j m split waiting =>
    rw [split] at hjobs
    rcases perm_pick hjobs with ⟨xs', hxs, hrest⟩ | ⟨ys', hys, hrest⟩
    · obtain ⟨hstore, hnext⟩ := (hstatic.perm hxs).effect (P := P) waiting m hmasters
      refine ⟨⟨_, ys, pins₁, pins₂, ?_, hnext, ?_, hpins⟩, ?_, h.location, h.mapRadius, h.live⟩
      · exact List.perm_middle.trans (hrest.cons _)
      · rw [State.settle_store, hstore]
        exact huser
      · rw [State.settle_store, hstore]
        exact h.others
    · obtain ⟨hstore, hnext⟩ := (huser.perm hys).effect (P := P) waiting m
        (fun doc hdoc doc' hdoc' => docs_inj hdoc hdoc')
      refine ⟨⟨xs, _, pins₁, pins₂, ?_, hstatic, hnext, hpins⟩, hstore.trans ?_, h.location,
        h.mapRadius, h.live⟩
      · exact List.perm_middle.trans ((hrest.cons _).trans List.perm_middle.symm)
      · rw [h.others, Backend.setCollection_setCollection]
        rfl
  | @deliver js₁ js₂ j m a split answered live =>
    obtain rfl : m = now := of_decide_eq_true guard
    have live : (s.locals j.client).crashed = false := by simpa using live
    rw [split] at hjobs
    show Reloading P m c map location mapRadius b₀
      (s.proceed j.client (js₁ ++ js₂) (resume P j.request m a (s.locals j.client)))
    rcases perm_pick hjobs with ⟨xs', hxs, hrest⟩ | ⟨ys', hys, hrest⟩
    · obtain ⟨hclient, rfl, rfl, hreply⟩ := (hstatic.perm hxs).deliver (P := P) answered live m
      rw [hreply, hclient]
      refine ⟨⟨[], ys, _, pins₂, ?_, .shown, huser, ?_⟩, h.others, ?_, ?_, ?_⟩
      · rw [State.proceed_jobs, List.map_nil, List.append_nil]
        exact hrest
      · rw [State.proceed_locals, Function.update_self, withPins_annotations]
        exact (hpins.append_right _).trans List.perm_append_comm
      · rw [State.proceed_locals, Function.update_self]
        exact h.location
      · rw [State.proceed_locals, Function.update_self]
        exact h.mapRadius
      · rw [State.proceed_locals, Function.update_self]
        exact h.live
    · rw [(huser.perm hys).client] at live ⊢
      obtain ⟨mapRadius', pins', l, rs, hradius, hreply, hnext⟩ :=
        (huser.perm hys).deliver (P := P) answered live h.location
      obtain rfl : mapRadius' = mapRadius := hradius.elim id (fun he => he.trans h.mapRadius)
      rw [hreply]
      refine ⟨⟨xs, _, pins₁, _, ?_, hstatic, hnext, ?_⟩, h.others, ?_, ?_, ?_⟩
      · rw [State.proceed_jobs, ← List.append_assoc]
        exact hrest.append_right _
      · rw [State.proceed_locals, Function.update_self, withPins_annotations, ← List.append_assoc]
        exact hpins.append_right _
      · rw [State.proceed_locals, Function.update_self]
        exact h.location
      · rw [State.proceed_locals, Function.update_self]
        exact h.mapRadius
      · rw [State.proceed_locals, Function.update_self]
        exact h.live

/-! ### A completed reload -/

/-- The device has begun to reload the map, with nothing else in flight. -/
def reloading (c : ℕ) (map : VC) (s : State) : State :=
  running s.store s.locals c (updateAnnotations map (s.locals c))

/-- **A completed reload** leaves the pins and the documents that its filters leave, and all
else as it is. -/
theorem reload_settles {ls : List Label} (live : (s.locals c).crashed = false)
    (hrun : Run (app P) (fun _ ℓ => undisturbed now ℓ = true) (reloading c map s) ls s')
    (hs' : s'.jobs = []) :
    ((s'.locals c).annotations map).Perm ((s.store.docs .masterPlaylists).filterMap staticPin ++
      (s.store.docs .userPlaylists).filterMap
        (userPin P now (s.locals c).userLocation (s.locals c).sharedUserInfo.mapRadius)) ∧
    s'.store.docs .userPlaylists =
      (s.store.docs .userPlaylists).filter (fun doc => !expired P now doc) ∧
    Reloading P now c map (s.locals c).userLocation (s.locals c).sharedUserInfo.mapRadius s.store
      s' := by
  have hbegun : Reloading P now c map (s.locals c).userLocation
      (s.locals c).sharedUserInfo.mapRadius s.store (reloading c map s) := by
    rw [reloading, updateAnnotations_apply live]
    refine ⟨⟨_, _, [], [], List.Perm.refl _, .asking, .asking, ?_⟩, ?_, ?_, ?_, ?_⟩
    · rw [running_locals, Function.update_self]
      exact List.Perm.of_eq (Function.update_self ..)
    · rw [running_store, Backend.setCollection, Function.update_eq_self]
    · rw [running_locals, Function.update_self]
    · rw [running_locals, Function.update_self]
    · rw [running_locals, Function.update_self]
      exact live
  have hend := hrun.invariant (fun _ _ _ h guard move => step_reloading h guard move) hbegun
  obtain ⟨xs, ys, pins₁, pins₂, hjobs, hstatic, huser, hpins⟩ := hend.parts
  rw [hs', List.nil_perm, List.append_eq_nil_iff] at hjobs
  obtain ⟨rfl, rfl⟩ := hjobs
  generalize hleft : s'.store.docs .userPlaylists = left at huser
  cases hstatic with
  | shown =>
    cases huser with
    | shown _ _ removing => exact ⟨hpins, removing.done, hend⟩

/-- Documents that are not expired have the pins that they had among all. -/
theorem filterMap_userPin (docs : List Doc) :
    (docs.filter (fun doc => !expired P now doc)).filterMap (userPin P now location mapRadius) =
      docs.filterMap (userPin P now location mapRadius) := by
  rw [List.filterMap_filter]
  refine List.filterMap_congr (fun doc _ => ?_)
  by_cases hold : expired P now doc = true
  · simp [userPin, hold]
  · simp [hold]

theorem count_staticPin (docs : List Doc) (a : Annotation) :
    (docs.filterMap staticPin).count a = docs.countP (fun doc => PinFor doc.data a) := by
  rw [List.count_filterMap]
  refine List.countP_congr (fun doc _ => ?_)
  rw [beq_iff_eq, decide_eq_true_eq, ← annotationOf_eq_some, staticPin]

theorem count_userPin (docs : List Doc) (place : Coordinate) (a : Annotation) :
    (docs.filterMap (userPin P now (some place) mapRadius)).count a = docs.countP (fun doc =>
      PinFor doc.data a ∧ Recent P now doc.data ∧
        (P.distance place a.coordinate).le mapRadius = true) := by
  rw [List.count_filterMap]
  refine List.countP_congr (fun doc _ => ?_)
  rw [beq_iff_eq, decide_eq_true_eq, ← annotationOf_eq_some, userPin_eq_some]
  simp only [getTimestamp_eq_some, Recent]

/-- Playlists near and far, an expired one without a title, one without a coordinate, and one
whose coordinate is a pair of booleans. -/
def mixedPlaylists : State where
  store := .of
    [Dict.fields (Request.playlistDict "Home" "SpotiFriend" "" ⟨.fin 1, .fin 1⟩ defaultLink) 0,
      Dict.fields [(.title, .value (.string "Nowhere"))] 0,
      Dict.fields [(.title, .value (.string "Pole")), (.author, .value (.string "SpotiFriend")),
        (.latitude, .value (.bool true)), (.longitude, .value (.bool false))] 0]
    [Dict.fields [(.date, .serverTimestamp)] 0,
      Dict.fields (Request.playlistDict "Road" "cleo" "cleo@mail.org" ⟨.fin 0, .fin 0⟩ defaultLink)
        86400,
      Dict.fields (Request.playlistDict "Moon" "cleo" "cleo@mail.org" ⟨.fin 50000, .fin 0⟩
        defaultLink) 86400]
    [] []
  locals _ := { Device.launched with userLocation := some ⟨.fin 0, .fin 0⟩ }
  jobs := []

def mixedReload : List Label :=
  [.effect 1 0, .deliver 1 691200, .effect 1 0, .deliver 1 691200, .effect 0 0, .deliver 0 691200]

def mixedReloadAgain : List Label :=
  [.effect 0 0, .deliver 0 691200, .effect 0 0, .deliver 0 691200]

def NumericPinFor (f : Fields) (a : Annotation) : Prop :=
  f .title = some (.string a.title) ∧ f .author = some (.string a.subtitle) ∧
    f .latitude = some (.number a.coordinate.latitude) ∧
    f .longitude = some (.number a.coordinate.longitude)

instance (f : Fields) (a : Annotation) : Decidable (NumericPinFor f a) :=
  inferInstanceAs (Decidable (_ ∧ _))

end SpotiFriend

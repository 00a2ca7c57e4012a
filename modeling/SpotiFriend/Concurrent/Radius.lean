import SpotiFriend.Async.Jobs
import SpotiFriend.Spec.Calls
import SpotiFriend.Spec.Documents
import SpotiFriend.Spec.Reload

/-!
# The map radius

A radius comes from the default, from a document or from the text that a user enters, and
each may find its way into the others.  `RadiusSound` says that all of them are finite and
positive, those on their way included.

* `resume_usable`, `start_usable`: what a device makes of its radius;
* `step_radius`: a move, where a text that is read is not that of an unusable number, and a
  radius that is loaded does not overflow;
* `radius_usable`: so every radius stays usable, and every region that is shown.
-/

namespace SpotiFriend

open Async SpotiFriend.Action MapVC

/-- Finite and positive. -/
def Double.usable : Double → Bool
  | .fin q => 0 < q
  | _ => false

def Value.usable : Value → Bool
  | .number x => x.usable
  | _ => false

def Double.outOfRange (miles : Double) : Bool := miles.usable && !(miles.mul (.fin 1609)).usable

/-- The text is no number, and stands for the default, or it is that of a usable number, which
does not overflow. -/
def usableText (text : String) : Bool :=
  (Double.ofText text).all (fun miles => miles.usable && !miles.outOfRange)

def StoredUsable (b : Backend) : Prop :=
  ∀ id, (b.field .userInfo id .mapRadius).all Value.usable = true

def DeviceUsable (d : Device) : Prop :=
  d.sharedUserInfo.mapRadius.usable = true ∧ ∀ map r, d.region map = some r →
    r.latitudinalMeters.usable = true ∧ r.longitudinalMeters.usable = true

def CarriesUsable : Job → Prop
  | ⟨_, .storeRadius _ _ mapRadius, _⟩ => mapRadius.usable = true
  | ⟨_, .getUserInfo _, some (.ok docs)⟩ =>
    ∀ doc ∈ docs, (doc.data .mapRadius).all Value.usable = true
  | _ => True

def readsRadius : Job → Option VC
  | ⟨_, .radiusUserInfo vc _, some (.ok [_])⟩ => some vc
  | ⟨_, .storeRadius vc _ _, some (.ok _)⟩ => some vc
  | _ => none

def loadsInRange : Job → Bool
  | ⟨_, .getUserInfo _, some (.ok docs)⟩ =>
    (docs.filterMap storedMiles).getLast?.all (fun miles => !miles.outOfRange)
  | _ => true

/-- A radius field that a handler reads has a usable text at that moment, and a radius that it
loads does not overflow. -/
def readsUsable (s : State) : Label → Bool
  | .deliver i _ => s.jobs[i]?.all (fun j => loadsInRange j && (readsRadius j).all (fun vc =>
    usableText ((s.locals j.client).text vc .mapRadiusTextField)))
  | _ => true

structure RadiusSound (s : State) : Prop where
  stored : StoredUsable s.store
  devices : ∀ c, DeviceUsable (s.locals c)
  jobs : ∀ j ∈ s.jobs, CarriesUsable j

variable {P : Platform} {s s' : State} {ℓ : Label} {ls : List Label} {m : ℤ} {b : Backend}
  {d : Device}

theorem Double.usable_mul {x : Double} (h : x.usable = true) (hrange : x.outOfRange = false) :
    (x.mul (.fin 1609)).usable = true := by
  rw [outOfRange, h, Bool.true_and, Bool.not_eq_false'] at hrange
  exact hrange

theorem radiusOf_usable {text : String} (h : usableText text = true) :
    (SettingsVC.radiusOf text).usable = true ∧
      ((SettingsVC.radiusOf text).mul (.fin 1609)).usable = true := by
  rw [SettingsVC.radiusOf]
  rw [usableText] at h
  cases hx : Double.ofText text with
  | none => decide +kernel
  | some x =>
    rw [hx, Option.all_some, Bool.and_eq_true, Bool.not_eq_true'] at h
    exact ⟨h.1, Double.usable_mul h.1 h.2⟩

/-! ### Devices -/

def Preserves (I : Device → Prop) (a : Action) : Prop := ∀ d, I d → I (a d).1

namespace Preserves

variable {I : Device → Prop} {α : Type} {a a' : Action}

theorem skip : Preserves I skip := fun _ h => h

theorem issue (r : Request) : Preserves I (issue r) := fun _ h => h

theorem modify {f : Device → Device} (h : ∀ d, I d → I (f d)) : Preserves I (modify f) := h

theorem andThen (ha : Preserves I a) (ha' : Preserves I a') : Preserves I (andThen a a') := by
  intro d hd
  rw [Action.andThen]
  split
  · exact ha d hd
  · exact ha' _ (ha d hd)

theorem forEach {f : α → Action} {l : List α} (h : ∀ x ∈ l, Preserves I (f x)) :
    Preserves I (forEach f l) := by
  induction l with
  | nil => exact skip
  | cons x l ih =>
    exact andThen (h x List.mem_cons_self) (ih (fun y hy => h y (List.mem_cons_of_mem x hy)))

theorem orAlert {reply : Except String α} {f : α → Action}
    (halert : ∀ d l, I d → I { d with alerts := l }) (h : ∀ x, reply = .ok x → Preserves I (f x)) :
    Preserves I (orAlert reply f) := by
  cases reply with
  | ok x => exact h x rfl
  | error e => exact fun d hd => halert d _ hd

end Preserves

theorem preserves_of_keeps {a : Action} (hradius : Keeps (fun d => d.sharedUserInfo.mapRadius) a)
    (hregion : Keeps Device.region a) : Preserves DeviceUsable a := by
  intro d hd
  refine ⟨?_, fun map r hr => hd.2 map r ?_⟩
  · rw [show (a d).1.sharedUserInfo.mapRadius = d.sharedUserInfo.mapRadius from hradius d]
    exact hd.1
  · rw [← hregion d]
    exact hr

theorem updateAnnotations_usable (map : VC) : Preserves DeviceUsable (updateAnnotations map) :=
  .andThen (.modify (fun _ hd => hd)) (.andThen (.issue _) (.issue _))

theorem zoomToLatestLoc_usable (map : VC) (coord : Coordinate) :
    Preserves DeviceUsable (zoomToLatestLoc map coord) := by
  refine .andThen (updateAnnotations_usable map) (.modify (fun d hd => ⟨hd.1, fun map' r hr => ?_⟩))
  dsimp only at hr
  by_cases hmap : map' = map
  · rw [hmap, Function.update_self] at hr
    cases hr
    exact ⟨hd.1, hd.1⟩
  · rw [Function.update_of_ne hmap] at hr
    exact hd.2 map' r hr

theorem withUser_usable {f : User → Action} (h : ∀ user, Preserves DeviceUsable (f user)) :
    Preserves DeviceUsable (EditAccountVC.withUser f) := by
  intro d hd
  rw [EditAccountVC.withUser]
  split
  · exact h _ d hd
  · exact hd

/-- **An event** leaves the device usable. -/
theorem start_usable (e : Event) : Preserves DeviceUsable (start e) := by
  cases e with
  | viewDidLoad map => exact .andThen (.issue _) (.issue _)
  | viewWillAppear =>
    refine .andThen (.modify (fun _ hd => hd)) (.andThen (.modify (fun d hd => ⟨rfl, hd.2⟩)) ?_)
    intro d hd
    dsimp only
    split
    · exact hd
    · exact hd
  | reloadMapClicked map => exact updateAnnotations_usable map
  | didUpdateLocations map locations =>
    cases locations with
    | nil => exact .skip
    | cons latestLoc _ => exact zoomToLatestLoc_usable map latestLoc
  | userLocationChanged location => exact fun _ hd => hd
  | viewFor pin p => exact fun _ hd => hd
  | calloutTapped p => exact .andThen (.issue _) (.issue _)
  | editText vc field text => exact fun _ hd => hd
  | mapLongPressed vc coords => exact .andThen (.modify (fun _ hd => hd)) (.modify (fun _ hd => hd))
  | addPlaylistClicked vc =>
    intro d hd
    rw [start, AddPlaylistVC.addPlaylistClicked]
    split
    · split
      · exact Preserves.andThen (.issue _) (.issue _) d hd
      · exact hd
    · exact hd
  | signUpClicked vc =>
    intro d hd
    rw [start, SignUpVC.signUpClicked]
    split
    · exact hd
    · exact hd
  | logInClicked vc =>
    intro d hd
    rw [start, LogInVC.logInClicked]
    split
    · exact hd
    · exact hd
  | logOutClicked signOut =>
    cases signOut with
    | true => exact fun _ hd => hd
    | false => exact fun _ hd => hd
  | updateClicked vc selectedEditID =>
    cases selectedEditID with
    | email =>
      refine withUser_usable (fun user d hd => ?_)
      dsimp only
      split
      · exact hd
      · exact hd
    | password =>
      intro d hd
      simp only [start, EditAccountVC.updateClicked]
      split
      · split
        · exact hd
        · exact hd
      · exact hd
    | username => exact withUser_usable (fun user => .issue _)
    | unset => exact fun _ hd => hd
  | updateMapRadiusClicked vc => exact withUser_usable (fun user => .issue _)
  | deleteAccountClicked => exact withUser_usable (fun user => .andThen (.issue _) (.issue _))
  | storeProfilePic uuid => exact fun _ hd => hd

theorem load_usable {u : UserSingleton} {docs : List Doc} (hu : u.mapRadius.usable = true)
    (hdocs : ∀ doc ∈ docs, (doc.data .mapRadius).all Value.usable = true)
    (hrange : (docs.filterMap storedMiles).getLast?.all (fun miles => !miles.outOfRange) = true) :
    (docs.foldl (fun u doc => u.load doc.data) u).mapRadius.usable = true := by
  rw [foldl_load_mapRadius]
  cases hlast : (docs.filterMap storedMiles).getLast? with
  | none => exact hu
  | some miles =>
    obtain ⟨doc, hdoc, hmiles⟩ := List.mem_filterMap.mp (List.mem_of_getLast? hlast)
    rw [storedMiles] at hmiles
    split at hmiles
    · obtain ⟨v, hv, hmiles⟩ := Option.bind_eq_some_iff.mp hmiles
      have husable := hdocs doc hdoc
      rw [hv] at husable
      rw [hlast, Option.all_some, Bool.not_eq_true'] at hrange
      cases v with
      | number x =>
        cases hmiles
        exact Double.usable_mul husable hrange
      | _ => cases husable
    · cases hmiles

theorem share_usable {f : UserSingleton → UserSingleton} (h : ∀ u, (f u).mapRadius = u.mapRadius) :
    Preserves DeviceUsable (share f) := by
  refine .modify (fun d hd => ⟨?_, hd.2⟩)
  rw [show (f d.sharedUserInfo).mapRadius = _ from h d.sharedUserInfo]
  exact hd.1

theorem addUserAnnotation_usable (map : VC) (doc : Doc) :
    Preserves DeviceUsable <| addUserAnnotation P map m doc := by
  intro d hd
  obtain ⟨l, h⟩ := addUserAnnotation_apply P map m d doc
  rw [h]
  exact hd

/-- **A handler** leaves the device usable, when the documents and the text that it is given
are. -/
theorem handler_usable (r : Request) (a : Except String r.Answer) {c : ℕ}
    (hjob : CarriesUsable ⟨c, r, some a⟩) (hd : DeviceUsable d)
    (hrange : loadsInRange ⟨c, r, some a⟩ = true)
    (htext : ∀ vc, readsRadius ⟨c, r, some a⟩ = some vc →
      usableText (d.text vc .mapRadiusTextField) = true) :
    DeviceUsable (handler P m r a d).1 := by
  have halert : ∀ (d : Device) (l : List Alert), DeviceUsable d → DeviceUsable { d with alerts := l } :=
    fun _ _ hd => hd
  have hnothing : ∀ {α : Type} (reply : Except String α) (f : α → Action),
      (∀ x, Preserves DeviceUsable (f x)) → DeviceUsable (orAlert reply f d).1 :=
    fun reply f hf => Preserves.orAlert halert (fun x _ => hf x) d hd
  have hloop : ∀ (reply : Except String (List Doc)) (f : Doc → Action),
      (∀ x, Preserves DeviceUsable (f x)) → DeviceUsable (orAlert reply (forEach f) d).1 :=
    fun reply f hf => hnothing reply _ (fun docs => .forEach (fun x _ => hf x))
  have hupdate : ∀ (reply : Except String (List Doc)) (f : Doc → Action),
      (∀ x, Preserves DeviceUsable (f x)) →
        DeviceUsable (orAlert reply (EditAccountVC.updateOnly f) d).1 := by
    refine fun reply f hf => hnothing reply _ (fun docs => ?_)
    rw [EditAccountVC.updateOnly]
    split
    · exact .skip
    · exact .forEach (fun x _ => hf x)
  cases r with
  | getUserInfo email =>
    change Except String (List Doc) at a
    cases a with
    | error err => exact hd
    | ok docs => exact ⟨load_usable hd.1 hjob hrange, hd.2⟩
  | addStaticAnnotations map =>
    refine hloop _ _ (fun doc => ?_)
    split
    · exact .modify (fun _ hd => hd)
    · exact .skip
  | addUserAnnotations map => exact hloop _ _ (fun doc => addUserAnnotation_usable map doc)
  | deleteOldPlaylist id => exact hnothing _ _ (fun _ => .skip)
  | viewForPlaylist pin p =>
    refine hloop _ _ (fun doc => ?_)
    split
    · exact .issue _
    · exact .skip
  | viewForUserInfo pin email =>
    refine hloop _ _ (fun doc => ?_)
    split
    · exact preserves_of_keeps (showPicture_keeps P pin _ (fun _ _ _ => rfl))
        (showPicture_keeps P pin _ (fun _ _ _ => rfl))
    · exact .skip
  | checkPlaylists coll p =>
    exact preserves_of_keeps (checkPlaylistsReply_keeps (fun _ _ _ _ => rfl))
      (checkPlaylistsReply_keeps (fun _ _ _ _ => rfl)) d hd
  | storeHasFound coll id l email => exact hnothing _ _ (fun _ => .issue _)
  | foundUserInfo email => exact hloop _ _ (fun doc _ hd => hd)
  | storeFound id n => exact hnothing _ _ (fun _ => share_usable (fun _ => rfl))
  | addPlaylist title author email p link =>
    cases a with
    | ok _ => exact hd
    | error _ => exact hd
  | createdUserInfo email n =>
    cases a with
    | error _ => exact hd
    | ok docs =>
      show DeviceUsable (AddPlaylistVC.createdUserInfoReply n (.ok docs) d).1
      rw [AddPlaylistVC.createdUserInfoReply]
      split
      · exact Preserves.forEach (fun _ _ => .issue _) d hd
      · exact hd
  | storeCreated id n => exact hnothing _ _ (fun _ => share_usable (fun _ => rfl))
  | updateEmail vc uid email oldEmail =>
    exact hnothing _ _ (fun _ => .andThen (.issue _) (fun d hd => share_usable (fun _ => rfl) d hd))
  | emailUserInfo vc oldEmail => exact hupdate _ _ (fun doc _ hd => hd)
  | storeEmail id email => exact hnothing _ _ (fun _ => .skip)
  | updatePassword vc uid password =>
    exact hnothing _ _ (fun _ => withUser_usable (fun user => .issue _))
  | passwordUserInfo vc email => exact hupdate _ _ (fun doc _ hd => hd)
  | storePassword id password => exact hnothing _ _ (fun _ => .skip)
  | usernameUserInfo vc email => exact hupdate _ _ (fun doc _ hd => hd)
  | storeUsername vc id username =>
    exact hnothing _ _ (fun _ d hd => share_usable (fun _ => rfl) d hd)
  | createUser vc email password => exact hnothing _ _ (fun _ _ hd => hd)
  | addUserInfo username email password => exact hnothing _ _ (fun _ => .skip)
  | signIn email password => exact hnothing _ _ (fun _ => .skip)
  | radiusUserInfo vc email => exact hupdate _ _ (fun doc _ hd => hd)
  | storeRadius vc id mapRadius =>
    cases a with
    | error _ => exact hd
    | ok _ => exact ⟨(radiusOf_usable (htext vc rfl)).2, hd.2⟩
  | deletedUserInfo email => exact hloop _ _ (fun doc => .issue _)
  | deleteUserInfo id =>
    cases a with
    | ok _ => exact hd
    | error _ => exact hd
  | deleteUser uid => exact hnothing _ _ (fun _ => .modify (fun _ hd => hd))
  | putPicture name => exact hnothing _ _ (fun _ => .issue _)
  | pictureURL name =>
    cases a with
    | error _ => exact hd
    | ok imgURL =>
      refine Preserves.andThen (fun d hd => ?_) (fun _ hd => hd) d hd
      rw [ProfileVC.deleteOldPicture]
      split
      · split
        · exact hd
        · exact hd
      · exact hd
  | deletePicture name => exact hnothing _ _ (fun _ => .skip)
  | pictureUserInfo email imgURL => exact hloop _ _ (fun doc => .issue _)
  | storePicture id imgURL => exact hnothing _ _ (fun _ => share_usable (fun _ => rfl))

/-! ### Documents and jobs -/

theorem writes_mapRadius {r : Request} {coll : CollectionName} {id : ℕ} {data : Dict}
    (h : r.operation = .setData coll id data) :
    (∃ vc x, r = .storeRadius vc id x ∧ data = [(.mapRadius, .value (.number x))]) ∨
      ∀ m, data.fields m .mapRadius = none := by
  cases r with
  | storeRadius vc id' x =>
    cases h
    exact Or.inl ⟨vc, x, rfl, rfl⟩
  | _ => cases h <;> exact Or.inr (fun m => by simp)

theorem adds_mapRadius {r : Request} {coll : CollectionName} {data : Dict}
    (h : r.operation = .addDocument coll data) : ∀ m, data.fields m .mapRadius = none := by
  cases r with
  | addPlaylist title author email p link =>
    cases h
    exact fun m => by simp [Request.playlistDict]
  | addUserInfo username email password =>
    cases h
    exact fun m => by simp [Request.userDict]
  | _ => cases h

theorem stored_exec {r : Request} (hb : StoredUsable b)
    (hr : ∀ vc id x, r = .storeRadius vc id x → x.usable = true) :
    StoredUsable (r.operation.exec P m b).1 := by
  intro id
  rcases exec_firestore r.operation P m b with
    ⟨coll, id', data, ho⟩ | ⟨coll, data, ho⟩ | ⟨coll, id', ho⟩ | hfirestore
  · rw [ho]
    rcases writes_mapRadius ho with ⟨vc, x, rfl, rfl⟩ | habsent
    · rw [field_setData]
      split
      · exact hr vc id' x rfl
      · exact hb id
    · rw [field_setData_of_absent (habsent m)]
      exact hb id
  · rw [ho, field_addDocument, adds_mapRadius ho]
    split
    · rfl
    · exact hb id
  · rw [ho, Backend.field, doc?_deleteDocument]
    split
    · rfl
    · exact hb id
  · rw [Backend.field, Backend.doc?, hfirestore]
    exact hb id

theorem answer_usable {j : Job} (hj : CarriesUsable j) (hb : StoredUsable b) :
    CarriesUsable (j.answer (j.request.operation.exec P m b).2) := by
  obtain ⟨c, r, reply⟩ := j
  cases r with
  | getUserInfo email =>
    intro doc hdoc
    rw [← Backend.field_of_mem (q := .userInfo email) hdoc .mapRadius]
    exact hb doc.id
  | storeRadius vc id x => exact hj
  | _ => trivial

/-- Only the handler of `radiusUserInfo` stores a radius, and it takes it from the text. -/
theorem leads_storeRadius {r : Request} {vc : VC} {id : ℕ} {x : Double}
    (h : Leads r (.storeRadius vc id x)) : ∃ email, r = .radiusUserInfo vc email := by
  cases r <;> simp_all [Leads]

theorem resume_carries {c : ℕ} {r : Request} {a : Except String r.Answer}
    (htext : ∀ vc, readsRadius ⟨c, r, some a⟩ = some vc →
      usableText (d.text vc .mapRadiusTextField) = true) :
    ∀ r' ∈ (resume P r m a d).2, CarriesUsable (.issue c r') := by
  intro r' hr'
  cases r' with
  | storeRadius vc id x =>
    obtain ⟨email, rfl⟩ := leads_storeRadius (resume_leads P r m a d _ hr')
    change Except String (List Doc) at a
    have hissues : Issues (fun d => d.text vc .mapRadiusTextField) (d.text vc .mapRadiusTextField)
        (fun r' => CarriesUsable (.issue c r')) (SettingsVC.radiusUserInfoReply vc a) := by
      refine Issues.orAlert (fun docs hdocs => ?_)
      rw [EditAccountVC.updateOnly]
      split
      · exact Issues.skip
      · next hlength =>
        refine Issues.forEach (fun _ _ _ => rfl) (fun doc hdoc d' htext' r' hr' => ?_)
        obtain rfl : docs = [doc] := by
          obtain ⟨doc', rfl⟩ := List.length_eq_one_iff.mp
            (Nat.le_antisymm (Nat.not_lt.mp hlength) (List.length_pos_of_mem hdoc))
          rw [List.mem_singleton.mp hdoc]
        rw [hdocs] at htext
        rw [List.mem_singleton.mp hr']
        show (SettingsVC.radiusOf (d'.text vc .mapRadiusTextField)).usable = true
        rw [htext']
        exact (radiusOf_usable (htext vc rfl)).1
    exact hissues _ rfl _ hr'
  | _ => trivial

theorem start_carries {c : ℕ} {e : Event} (live : d.crashed = false) :
    ∀ r ∈ (start e d).2, CarriesUsable (.issue c r) := by
  intro r hr
  have hopens := start_opens e live r hr
  cases r with
  | storeRadius vc id x => cases hopens
  | _ => trivial

/-! ### Runs -/

/-- **A move** keeps every radius usable, when a text that is read is. -/
theorem step_radius (h : RadiusSound s) (guard : readsUsable s ℓ = true) (move : Step (app P) s ℓ s') :
    RadiusSound s' := by
  have hreads : ∀ js₁ j js₂ m a, ℓ = .deliver js₁.length m → s.jobs = js₁ ++ j :: js₂ →
      j.reply = some a → loadsInRange ⟨j.client, j.request, some a⟩ = true ∧
      ∀ vc, readsRadius ⟨j.client, j.request, some a⟩ = some vc →
        usableText ((s.locals j.client).text vc .mapRadiusTextField) = true := by
    intro js₁ j js₂ m a hℓ split answered
    rw [hℓ, readsUsable, getElem?_split split, Option.all_some, Job.eq_of_reply answered,
      Bool.and_eq_true] at guard
    refine ⟨guard.1, fun vc hvc => ?_⟩
    rw [hvc] at guard
    exact guard.2
  have hdevice : ∀ c d, DeviceUsable d → ∀ c', DeviceUsable (Function.update s.locals c d c') := by
    intro c d hd c'
    by_cases hc : c' = c
    · rw [hc, Function.update_self]
      exact hd
    · rw [Function.update_of_ne hc]
      exact h.devices c'
  have hjobs : ∀ j ∈ s'.jobs, CarriesUsable j := by
    refine move.jobs (φ := fun _ j => CarriesUsable j) h.jobs ?_ ?_ ?_ ?_
    · exact fun c e _ live => start_carries (by simpa using live)
    · intro js₁ j js₂ m _ split _
      exact ⟨answer_usable (h.jobs j (mem_of_split split)) h.stored,
        fun j' hj' => h.jobs j' ((rest_sublist split).subset hj')⟩
    · intro js₁ j js₂ err _ split _
      have hj := h.jobs j (mem_of_split split)
      obtain ⟨c, r, reply⟩ := j
      cases r with
      | storeRadius vc id x => exact hj
      | _ => trivial
    · exact fun js₁ j js₂ m a hℓ split answered _ =>
        resume_carries (hreads js₁ j js₂ m a hℓ split answered).2
  cases move with
  | event c e live => exact ⟨h.stored, hdevice c _ (start_usable e _ (h.devices c)), hjobs⟩
  | effect j m split waiting =>
    refine ⟨stored_exec h.stored (fun vc id x hr => ?_), h.devices, hjobs⟩
    have hj := h.jobs j (mem_of_split split)
    obtain ⟨c, r, reply⟩ := j
    cases hr
    exact hj
  | fail j err split waiting => exact ⟨h.stored, h.devices, hjobs⟩
  | @deliver js₁ js₂ j m a split answered live =>
    have hj := h.jobs j (mem_of_split split)
    rw [Job.eq_of_reply answered] at hj
    obtain ⟨hrange, htext⟩ := hreads js₁ j js₂ m a rfl split answered
    exact ⟨h.stored, hdevice _ _ (handler_usable j.request a hj (h.devices j.client) hrange htext),
      hjobs⟩

/-- **The map radius stays usable** on every device and in every document, whatever happens,
when every text that is read from a radius field is and no radius that is loaded overflows. -/
theorem radius_usable (quiet : s.jobs = []) (stored : StoredUsable s.store)
    (devices : ∀ c, DeviceUsable (s.locals c))
    (hrun : Run (app P) (fun s ℓ => readsUsable s ℓ = true) s ls s') :
    StoredUsable s'.store ∧ ∀ c, DeviceUsable (s'.locals c) := by
  have hend := hrun.invariant (fun _ _ _ h guard move => step_radius h guard move)
    (I := RadiusSound) ⟨stored, devices, fun j hj => by rw [quiet] at hj; cases hj⟩
  exact ⟨hend.stored, hend.devices⟩

def settings : State where
  store := .of [] [] [Dict.fields (Request.userDict "cleo" "cleo@mail.org" "pw") 0] []
  locals _ := { Device.launched with currentUser := some ⟨0, "cleo@mail.org"⟩ }
  jobs := []

def saves (text : String) : List Label :=
  [.event 0 (.editText 1 .mapRadiusTextField text), .event 0 (.updateMapRadiusClicked 1),
    .effect 0 0, .deliver 0 0, .effect 0 0, .deliver 0 0,
    .event 0 (.didUpdateLocations 0 [⟨.fin 0, .fin 0⟩])]

theorem settings_stored : StoredUsable settings.store := by
  intro id
  cases id with
  | zero => rfl
  | succ id => rfl

theorem settings_devices (c : ℕ) : DeviceUsable (settings.locals c) := ⟨rfl, nofun⟩

theorem radius_saved : ∃ s' : State,
    Run (app .sample) (fun s ℓ => readsUsable s ℓ = true) settings (saves "2.5") s' ∧
      StoredUsable s'.store ∧ ∀ c, DeviceUsable (s'.locals c) := by
  obtain ⟨s', hrun, -⟩ := Run.exists_of_run (P := app .sample) (G := readsUsable) (s := settings)
    (l := saves "2.5") (Q := fun _ => true) (by decide +kernel)
  exact ⟨s', hrun, radius_usable rfl settings_stored settings_devices hrun⟩

def ofRadius : Label → Bool
  | .event _ (.editText _ field _) => field = .mapRadiusTextField
  | .event _ e => match e with
    | .updateMapRadiusClicked _ | .viewWillAppear | .didUpdateLocations _ _ => true
    | _ => false
  | _ => true

/-- **A radius of zero** is stored, kept in memory and shown. -/
theorem radius_zero : StoredUsable settings.store ∧ (∀ c, DeviceUsable (settings.locals c)) ∧
    ∃ s' : State, Run (app .sample) (fun _ ℓ => ofRadius ℓ = true) settings (saves "0") s' ∧
      ¬ StoredUsable s'.store ∧ (s'.locals 0).sharedUserInfo.mapRadius.usable = false ∧
      (s'.locals 0).region 0 = some ⟨⟨.fin 0, .fin 0⟩, .fin 0, .fin 0⟩ := by
  refine ⟨settings_stored, settings_devices, ?_⟩
  obtain ⟨s', hrun, hend⟩ := Run.exists_of_run (P := app .sample) (G := fun _ => ofRadius)
    (s := settings) (l := saves "0")
    (Q := fun s' => !(s'.store.field .userInfo 0 .mapRadius).all Value.usable &&
      !(s'.locals 0).sharedUserInfo.mapRadius.usable &&
      (s'.locals 0).region 0 = some ⟨⟨.fin 0, .fin 0⟩, .fin 0, .fin 0⟩) (by decide +kernel)
  simp only [Bool.and_eq_true, Bool.not_eq_true', decide_eq_true_eq] at hend
  refine ⟨s', hrun, fun hstored => ?_, hend.1.2, hend.2⟩
  rw [hstored 0] at hend
  exact Bool.noConfusion hend.1.1

end SpotiFriend

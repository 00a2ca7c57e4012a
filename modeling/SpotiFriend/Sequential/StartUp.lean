import SpotiFriend.Sequential.Reloading

/-!
# The start of the map screen

`viewDidLoad` and `viewWillAppear` make three queries, and the results may be delivered in
any order.  The pins of users' playlists come with the radius that the device has when
their result is handled: the default until the user's document is there, and the stored
radius from then on.

* `step_starting`: a move of one of the three parts;
* `startUp_settles`: what is left when the results are there;
* `startsAlike_iff`: the order does not matter if and only if the two radii tell no playlist
  apart;
* `startUp_differs`: a playlist between them.
-/

namespace SpotiFriend

open Async SpotiFriend.Action MapVC

def startUp (map : VC) : Action := andThen (viewDidLoad map) viewWillAppear

def starting (c : ℕ) (map : VC) (s : State) : State :=
  running s.store s.locals c (startUp map (s.locals c))

def ofStart : Request → Bool
  | .addStaticAnnotations _ => true
  | .addUserAnnotations _ => true
  | .getUserInfo _ => true
  | _ => false

def Delivered (s : State) : Prop := ∀ j ∈ s.jobs, ofStart j.request = false

/-- What `getUserInfo` makes of the documents with the email. -/
def loadedInfo (b : Backend) (email : String) : UserSingleton :=
  (b.getDocuments (.userInfo email)).foldl (fun u doc => u.load doc.data) .reset

def startPins (P : Platform) (now : ℤ) (place : Coordinate) (mapRadius : Double) (b : Backend) :
    List Annotation :=
  (b.docs .masterPlaylists).filterMap staticPin ++
    (b.docs .userPlaylists).filterMap (userPin P now (some place) mapRadius)

def storedRadius (b : Backend) (email : String) : Double :=
  (((b.getDocuments (.userInfo email)).filterMap storedMiles).getLast?.map
    (fun miles => miles.mul (.fin 1609))).getD UserSingleton.reset.mapRadius

/-- **The start does not depend on the order of delivery**: every two orders end with the same
pins and the same user information, and the pins are those within the stored radius. -/
def StartsAlike (P : Platform) (now : ℤ) (c : ℕ) (map : VC) (email : String) (place : Coordinate)
    (s : State) : Prop :=
  (∀ ls ls' s₁ s₂, Run (app P) (fun _ ℓ => undisturbed now ℓ = true) (starting c map s) ls s₁ →
    Delivered s₁ → Run (app P) (fun _ ℓ => undisturbed now ℓ = true) (starting c map s) ls' s₂ →
    Delivered s₂ → ((s₁.locals c).annotations map).Perm ((s₂.locals c).annotations map) ∧
      (s₁.locals c).sharedUserInfo = (s₂.locals c).sharedUserInfo) ∧
  ∀ ls s₁, Run (app P) (fun _ ℓ => undisturbed now ℓ = true) (starting c map s) ls s₁ →
    Delivered s₁ → ((s₁.locals c).annotations map).Perm ((s.locals c).annotations map ++
      startPins P now place (storedRadius s.store email) s.store)

/-- Where `getUserInfo` is, with the user information of the device. -/
inductive InfoPart (c : ℕ) (email : String) (b₀ : Backend) : List Job → UserSingleton → Prop
  | asking : InfoPart c email b₀ [⟨c, .getUserInfo email, none⟩] .reset
  | asked : InfoPart c email b₀
      [⟨c, .getUserInfo email, some (.ok (b₀.getDocuments (.userInfo email)))⟩] .reset
  | loaded : InfoPart c email b₀ [] (loadedInfo b₀ email)

/-- The start of the map on the device `c`, from the services `b₀` and the pins `pins₀` on. -/
structure Starting (P : Platform) (now : ℤ) (c : ℕ) (map : VC) (email : String)
    (place : Coordinate) (pins₀ : List Annotation) (b₀ : Backend) (s : State) : Prop where
  parts : ∃ js₁ js₂ js₃ pins₁ pins₂ mapRadius, s.jobs.Perm (js₁ ++ (js₂ ++ js₃)) ∧
    StaticPart c map (b₀.docs .masterPlaylists) js₁ pins₁ ∧
    (mapRadius = UserSingleton.reset.mapRadius ∨ mapRadius = (loadedInfo b₀ email).mapRadius) ∧
    UserPart P now c map (some place) mapRadius (b₀.docs .userPlaylists) js₂
      (s.store.docs .userPlaylists) pins₂ ∧
    InfoPart c email b₀ js₃ (s.locals c).sharedUserInfo ∧
    ((s.locals c).annotations map).Perm (pins₀ ++ (pins₁ ++ pins₂))
  others : s.store = b₀.setCollection .userPlaylists (s.store.firestore .userPlaylists)
  location : (s.locals c).userLocation = some place
  live : (s.locals c).crashed = false

variable {P : Platform} {now : ℤ} {c : ℕ} {map : VC} {email : String} {place : Coordinate}
  {pins₀ : List Annotation} {b b₀ : Backend} {s s' : State} {ℓ : Label} {j : Job} {js : List Job}
  {d : Device} {u : UserSingleton} {user : User} {ls : List Label}

theorem startUp_apply (live : d.crashed = false) (huser : d.currentUser = some user) :
    startUp map d = ({ d with mapShown := true, sharedUserInfo := .reset },
      [.addStaticAnnotations map, .addUserAnnotations map, .getUserInfo user.email]) := by
  rw [startUp, andThen_of_live (by rw [viewDidLoad_apply live]; exact live), viewDidLoad_apply live]
  dsimp only
  rw [viewWillAppear_apply live]
  simp [huser, live]

namespace InfoPart

theorem perm {js' : List Job} (h : InfoPart c email b₀ js u) (hperm : js.Perm js') :
    InfoPart c email b₀ js' u := by
  cases h with
  | asking => exact List.perm_singleton.mp hperm.symm ▸ .asking
  | asked => exact List.perm_singleton.mp hperm.symm ▸ .asked
  | loaded => exact List.perm_nil.mp hperm.symm ▸ .loaded

theorem effect (h : InfoPart c email b₀ (j :: js) u) (waiting : j.reply = none) (m : ℤ)
    (hdocs : b.getDocuments (.userInfo email) = b₀.getDocuments (.userInfo email)) :
    (j.request.operation.exec P m b).1 = b ∧
      InfoPart c email b₀ (j.answer (j.request.operation.exec P m b).2 :: js) u := by
  cases h with
  | asking =>
    refine ⟨rfl, ?_⟩
    show InfoPart c email b₀ [⟨c, .getUserInfo email, some (.ok (b.getDocuments (.userInfo email)))⟩] _
    rw [hdocs]
    exact .asked
  | asked => cases waiting

theorem deliver {a : Except String j.request.Answer} (h : InfoPart c email b₀ (j :: js) u)
    (answered : j.reply = some a) (hu : d.sharedUserInfo = u) (m : ℤ) : j.client = c ∧ js = [] ∧
      resume P j.request m a d = ({ d with sharedUserInfo := loadedInfo b₀ email }, []) := by
  cases h with
  | asking => cases answered
  | asked =>
    obtain rfl := Option.some.inj answered
    refine ⟨rfl, rfl, ?_⟩
    rw [loadedInfo, ← hu]
    rfl

theorem mapRadius (h : InfoPart c email b₀ js u) :
    u.mapRadius = UserSingleton.reset.mapRadius ∨ u.mapRadius = (loadedInfo b₀ email).mapRadius := by
  cases h with
  | asking | asked => exact Or.inl rfl
  | loaded => exact Or.inr rfl

end InfoPart

/-- **One move** of a start. -/
theorem step_starting (h : Starting P now c map email place pins₀ b₀ s)
    (guard : undisturbed now ℓ = true) (move : Step (app P) s ℓ s') :
    Starting P now c map email place pins₀ b₀ s' := by
  obtain ⟨xs, ys, zs, pins₁, pins₂, mapRadius, hjobs, hstatic, hradius, huser, hinfo, hpins⟩ := h.parts
  have hcoll : ∀ coll, coll ≠ .userPlaylists → s.store.firestore coll = b₀.firestore coll := by
    intro coll hne
    rw [h.others, Backend.setCollection_firestore, Function.update_of_ne hne]
  cases move with
  | event c e live => cases guard
  | fail j err split waiting => cases guard
  | @effect js₁ js₂ j m split waiting =>
    rw [split] at hjobs
    rcases perm_pick₃ hjobs with ⟨xs', hxs, hrest⟩ | ⟨ys', hys, hrest⟩ | ⟨zs', hzs, hrest⟩
    · obtain ⟨hstore, hnext⟩ := (hstatic.perm hxs).effect (P := P) waiting m
        (congrArg Store.Collection.docs (hcoll .masterPlaylists nofun))
      refine ⟨⟨_, ys, zs, pins₁, pins₂, mapRadius, ?_, hnext, hradius, ?_, hinfo, hpins⟩, ?_,
        h.location, h.live⟩
      · exact List.perm_middle.trans (hrest.cons _)
      · rw [State.settle_store, hstore]
        exact huser
      · rw [State.settle_store, hstore]
        exact h.others
    · obtain ⟨hstore, hnext⟩ := (huser.perm hys).effect (P := P) waiting m
        (fun doc hdoc doc' hdoc' => docs_inj hdoc hdoc')
      refine ⟨⟨xs, _, zs, pins₁, pins₂, mapRadius, ?_, hstatic, hradius, hnext, hinfo, hpins⟩,
        hstore.trans ?_, h.location, h.live⟩
      · exact List.perm_middle.trans ((hrest.cons _).trans List.perm_middle.symm)
      · rw [h.others, Backend.setCollection_setCollection]
        rfl
    · obtain ⟨hstore, hnext⟩ := (hinfo.perm hzs).effect (P := P) waiting m
        (Backend.getDocuments_congr (q := .userInfo email) (hcoll .userInfo nofun))
      refine ⟨⟨xs, ys, _, pins₁, pins₂, mapRadius, ?_, hstatic, hradius, ?_, hnext, hpins⟩, ?_,
        h.location, h.live⟩
      · refine List.perm_middle.trans ((hrest.cons _).trans ?_)
        rw [← List.append_assoc, ← List.append_assoc]
        exact List.perm_middle.symm
      · rw [State.settle_store, hstore]
        exact huser
      · rw [State.settle_store, hstore]
        exact h.others
  | @deliver js₁ js₂ j m a split answered live =>
    obtain rfl : m = now := of_decide_eq_true guard
    have live : (s.locals j.client).crashed = false := by simpa using live
    rw [split] at hjobs
    show Starting P m c map email place pins₀ b₀
      (s.proceed j.client (js₁ ++ js₂) (resume P j.request m a (s.locals j.client)))
    rcases perm_pick₃ hjobs with ⟨xs', hxs, hrest⟩ | ⟨ys', hys, hrest⟩ | ⟨zs', hzs, hrest⟩
    · obtain ⟨hclient, rfl, rfl, hreply⟩ := (hstatic.perm hxs).deliver (P := P) answered live m
      rw [hreply, hclient]
      refine ⟨⟨[], ys, zs, _, pins₂, mapRadius, ?_, .shown, hradius, huser, ?_, ?_⟩, h.others, ?_, ?_⟩
      · rw [State.proceed_jobs, List.map_nil, List.append_nil]
        exact hrest
      · rw [State.proceed_locals, Function.update_self]
        exact hinfo
      · rw [State.proceed_locals, Function.update_self, withPins_annotations]
        refine (hpins.append_right _).trans ?_
        rw [List.nil_append, List.append_assoc]
        exact List.perm_append_comm.append_left _
      · rw [State.proceed_locals, Function.update_self]
        exact h.location
      · rw [State.proceed_locals, Function.update_self]
        exact h.live
    · rw [(huser.perm hys).client] at live ⊢
      obtain ⟨mapRadius', pins', l, rs, hradius', hreply, hnext⟩ :=
        (huser.perm hys).deliver (P := P) answered live h.location
      rw [hreply]
      refine ⟨⟨xs, _, zs, pins₁, _, mapRadius', ?_, hstatic, ?_, hnext, ?_, ?_⟩, h.others, ?_, ?_⟩
      · rw [State.proceed_jobs]
        refine (hrest.append_right _).trans ?_
        rw [List.append_assoc, List.append_assoc, List.append_assoc]
        exact (List.perm_append_comm.append_left _).append_left _
      · rcases hradius' with rfl | rfl
        · exact hradius
        · exact hinfo.mapRadius
      · rw [State.proceed_locals, Function.update_self]
        exact hinfo
      · rw [State.proceed_locals, Function.update_self, withPins_annotations]
        refine (hpins.append_right _).trans ?_
        rw [List.append_assoc, List.append_assoc]
      · rw [State.proceed_locals, Function.update_self]
        exact h.location
      · rw [State.proceed_locals, Function.update_self]
        exact h.live
    · obtain ⟨hclient, rfl, hreply⟩ :=
        (hinfo.perm hzs).deliver (P := P) (d := s.locals c) answered rfl m
      rw [hclient, hreply]
      refine ⟨⟨xs, ys, [], pins₁, pins₂, mapRadius, ?_, hstatic, hradius, huser, ?_, ?_⟩, h.others,
        ?_, ?_⟩
      · rw [State.proceed_jobs, List.map_nil, List.append_nil]
        exact hrest
      · rw [State.proceed_locals, Function.update_self]
        exact .loaded
      · rw [State.proceed_locals, Function.update_self]
        exact hpins
      · rw [State.proceed_locals, Function.update_self]
        exact h.location
      · rw [State.proceed_locals, Function.update_self]
        exact h.live

/-! ### What is left -/

/-- **A completed start** has the pins of one radius or of the other, and the user's
information. -/
theorem startUp_settles (live : (s.locals c).crashed = false)
    (huser : (s.locals c).currentUser = some user) (hlocation : (s.locals c).userLocation = some place)
    (hrun : Run (app P) (fun _ ℓ => undisturbed now ℓ = true) (starting c map s) ls s')
    (hs' : Delivered s') : (s'.locals c).sharedUserInfo = loadedInfo s.store user.email ∧
      ∃ mapRadius, (mapRadius = UserSingleton.reset.mapRadius ∨
          mapRadius = (loadedInfo s.store user.email).mapRadius) ∧
        ((s'.locals c).annotations map).Perm
          ((s.locals c).annotations map ++ startPins P now place mapRadius s.store) := by
  have hbegun : Starting P now c map user.email place ((s.locals c).annotations map) s.store
      (starting c map s) := by
    rw [starting, startUp_apply live huser]
    refine ⟨⟨[_], [_], [_], [], [], _, List.Perm.refl _, .asking, Or.inl rfl, .asking, ?_, ?_⟩,
      ?_, ?_, ?_⟩
    · rw [running_locals, Function.update_self]
      exact .asking
    · rw [running_locals, Function.update_self, List.append_nil, List.append_nil]
    · rw [running_store, Backend.setCollection, Function.update_eq_self]
    · rw [running_locals, Function.update_self]
      exact hlocation
    · rw [running_locals, Function.update_self]
      exact live
  have hend := hrun.invariant (fun _ _ _ h guard move => step_starting h guard move) hbegun
  obtain ⟨xs, ys, zs, pins₁, pins₂, mapRadius, hjobs, hstatic, hradius, hpart, hinfo, hpins⟩ := hend.parts
  -- a part that has not come to its end has a query in flight
  have hpending : ∀ j : Job, j ∈ xs ++ (ys ++ zs) → ofStart j.request = false :=
    fun j hj => hs' j (hjobs.mem_iff.mpr hj)
  generalize hu : (s'.locals c).sharedUserInfo = u at hinfo
  generalize s'.store.docs .userPlaylists = left at hpart
  cases hinfo with
  | asking => cases hpending _ (List.mem_append_right _ (List.mem_append_right _ List.mem_cons_self))
  | asked => cases hpending _ (List.mem_append_right _ (List.mem_append_right _ List.mem_cons_self))
  | loaded =>
    cases hstatic with
    | asking => cases hpending _ (List.mem_append_left _ List.mem_cons_self)
    | asked => cases hpending _ (List.mem_append_left _ List.mem_cons_self)
    | shown =>
      cases hpart with
      | asking => cases hpending _ (List.mem_append_right _ (List.mem_append_left _ List.mem_cons_self))
      | asked => cases hpending _ (List.mem_append_right _ (List.mem_append_left _ List.mem_cons_self))
      | shown => exact ⟨rfl, mapRadius, hradius, hpins⟩

/-! ### The other order -/

theorem run_early (now : ℤ) (map : VC) (st : Backend) (locals : ℕ → Device) (email : String)
    (docs docs' docs'' : List Doc) (live : d.crashed = false) (hradius : d.sharedUserInfo = .reset)
    (hlocation : d.userLocation = some place) :
    ∃ ls s', Run (app P) (fun _ ℓ => undisturbed now ℓ = true) ⟨st, Function.update locals c d,
        [⟨c, .addStaticAnnotations map, some (.ok docs)⟩,
          ⟨c, .addUserAnnotations map, some (.ok docs')⟩,
          ⟨c, .getUserInfo email, some (.ok docs'')⟩]⟩ ls s' ∧
      Delivered s' ∧ (s'.locals c).annotations map = d.annotations map ++
        docs'.filterMap (userPin P now (some place) UserSingleton.reset.mapRadius) ++
        docs.filterMap staticPin := by
  obtain ⟨l, hreply⟩ := addUserAnnotationsReply_apply P map now docs' live
  rw [hlocation, hradius] at hreply
  have hfirst : Step (app P) ⟨st, Function.update locals c d, _⟩ (.deliver 1 now) _ :=
    .deliver_own (show _ = [(⟨c, .addStaticAnnotations map, some (.ok docs)⟩ : Job)] ++
        ⟨c, .addUserAnnotations map, some (.ok docs')⟩ ::
          [⟨c, .getUserInfo email, some (.ok docs'')⟩] from rfl) (congrArg not live) hreply
  have hsecond : ∀ js, Step (app P) ⟨st, Function.update locals c (withPins d map
      (docs'.filterMap (userPin P now (some place) UserSingleton.reset.mapRadius)) l), _⟩
      (.deliver 0 now) _ := fun js =>
    .deliver_own (show _ = [] ++ (⟨c, .addStaticAnnotations map, some (.ok docs)⟩ : Job) ::
        ⟨c, .getUserInfo email, some (.ok docs'')⟩ :: js from rfl)
      (congrArg not live) (addStaticAnnotationsReply_apply map docs live)
  have hnow : ∀ i, undisturbed now (.deliver i now) = true := fun i => decide_eq_true rfl
  refine ⟨_, _, Run.prepend (hnow _) hfirst (Run.prepend (hnow _) (hsecond _) (Run.prepend (hnow _)
    (.deliver_own (show _ = [] ++ _ from rfl) (congrArg not live) (Prod.ext rfl rfl)) (.nil _))), fun j hj => ?_, ?_⟩
  · simp only [List.append_eq, List.nil_append, List.map_nil, List.append_nil, List.map_map] at hj
    obtain ⟨doc, -, rfl⟩ := List.mem_map.mp hj
    rfl
  · refine (congrArg (fun d : Device => d.annotations map) (Function.update_self ..)).trans ?_
    show (withPins (withPins d map _ l) map _ l).annotations map = _
    rw [withPins_annotations, withPins_annotations]

/-- The users' playlists come first, and get their pins with the default radius. -/
theorem startUp_early (now : ℤ) (map : VC) (live : (s.locals c).crashed = false)
    (huser : (s.locals c).currentUser = some user) (hlocation : (s.locals c).userLocation = some place) :
    ∃ ls s', Run (app P) (fun _ ℓ => undisturbed now ℓ = true) (starting c map s) ls s' ∧
      Delivered s' ∧ ((s'.locals c).annotations map).Perm ((s.locals c).annotations map ++
        startPins P now place UserSingleton.reset.mapRadius s.store) := by
  rw [starting, startUp_apply live huser]
  obtain ⟨ls, s', hrun, hs', hpins⟩ := run_early (P := P) (c := c) now map s.store s.locals user.email
    (s.store.docs .masterPlaylists) (s.store.docs .userPlaylists)
    (s.store.getDocuments (.userInfo user.email))
    (d := { s.locals c with mapShown := true, sharedUserInfo := .reset }) live rfl hlocation
  rw [← Backend.getDocuments_all, ← Backend.getDocuments_all] at hrun
  refine ⟨_, s', Run.prepend rfl (.effect _ 0 (show _ = [] ++ _ from rfl) rfl)
    (Run.prepend rfl (.effect _ 0 (show _ = [_] ++ _ from rfl) rfl)
      (Run.prepend rfl (.effect _ 0 (show _ = [_, _] ++ _ from rfl) rfl) hrun)), hs', ?_⟩
  rw [hpins, startPins, List.append_assoc]
  exact List.perm_append_comm.append_left _

/-! ### Two radii -/

/-- Two radii let the same playlists through. -/
def SameWithin (P : Platform) (now : ℤ) (place : Coordinate) (mapRadius mapRadius' : Double)
    (docs : List Doc) : Prop :=
  ∀ doc ∈ docs, ∀ a dateUploaded, annotationOf doc.data = some a →
    getTimestamp doc.data .date = some dateUploaded → P.days dateUploaded now ≤ 7 →
    (P.distance place a.coordinate).le mapRadius = (P.distance place a.coordinate).le mapRadius'

theorem loadedInfo_mapRadius (b : Backend) (email : String) :
    (loadedInfo b email).mapRadius = storedRadius b email := foldl_load_mapRadius _ _

/-- A filter that lets more through, and no more of them, lets the same through. -/
theorem filterMap_eq_of_length {α β : Type} {f g : α → Option β}
    (hfg : ∀ x a, f x = some a → g x = some a) : ∀ l : List α,
    (l.filterMap f).length ≤ (l.filterMap g).length ∧
      ((l.filterMap f).length = (l.filterMap g).length → ∀ x ∈ l, f x = g x) := by
  intro l
  induction l with
  | nil => exact ⟨le_refl _, fun _ _ hx => absurd hx List.not_mem_nil⟩
  | cons x l ih =>
    obtain ⟨hle, heq⟩ := ih
    cases hf : f x with
    | some a =>
      rw [List.filterMap_cons_some hf, List.filterMap_cons_some (hfg x a hf), List.length_cons,
        List.length_cons]
      refine ⟨Nat.succ_le_succ hle, fun hlength => List.forall_mem_cons.mpr ⟨?_, ?_⟩⟩
      · rw [hf, hfg x a hf]
      · exact heq (Nat.succ.inj hlength)
    | none =>
      rw [List.filterMap_cons_none hf]
      cases hg : g x with
      | none =>
        rw [List.filterMap_cons_none hg]
        exact ⟨hle, fun hlength => List.forall_mem_cons.mpr ⟨hf.trans hg.symm, heq hlength⟩⟩
      | some a =>
        rw [List.filterMap_cons_some hg, List.length_cons]
        exact ⟨by omega, fun hlength => by omega⟩

theorem sameWithin_iff {mapRadius mapRadius' : Double} {docs : List Doc} :
    SameWithin P now place mapRadius mapRadius' docs ↔
      ∀ doc ∈ docs, userPin P now (some place) mapRadius doc =
        userPin P now (some place) mapRadius' doc := by
  constructor
  · intro h doc hdoc
    refine Option.ext (fun a => ?_)
    rw [userPin_eq_some, userPin_eq_some]
    refine and_congr_right (fun ha => and_congr_right (fun ⟨t, ht, hfresh⟩ => ?_))
    rw [h doc hdoc a t ha ht hfresh]
  · intro h doc hdoc a t ha ht hfresh
    have hpin : ∀ mapRadius, userPin P now (some place) mapRadius doc = some a ↔
        (P.distance place a.coordinate).le mapRadius = true := by
      intro mapRadius
      rw [userPin_eq_some]
      exact ⟨fun hall => hall.2.2, fun hnear => ⟨ha, ⟨t, ht, hfresh⟩, hnear⟩⟩
    rw [Bool.eq_iff_iff, ← hpin, ← hpin, h doc hdoc]

theorem userPin_eq_of_length {mapRadius mapRadius' : Double} {docs : List Doc}
    (h : (docs.filterMap (userPin P now (some place) mapRadius)).length =
      (docs.filterMap (userPin P now (some place) mapRadius')).length) :
    ∀ doc ∈ docs, userPin P now (some place) mapRadius doc =
      userPin P now (some place) mapRadius' doc := by
  have hmore : ∀ {r r' : Double}, (∀ x : Double, x.le r = true → x.le r' = true) → ∀ doc a,
      userPin P now (some place) r doc = some a → userPin P now (some place) r' doc = some a := by
    intro r r' hle doc a hpin
    rw [userPin_eq_some] at hpin ⊢
    exact ⟨hpin.1, hpin.2.1, hle _ hpin.2.2⟩
  rcases Double.le_or_le mapRadius mapRadius' with hle | hle
  · exact (filterMap_eq_of_length (hmore hle) docs).2 h
  · exact fun doc hdoc => ((filterMap_eq_of_length (hmore hle) docs).2 h.symm doc hdoc).symm

/-- **The order of delivery does not matter** if and only if the default radius and the stored
one let the same playlists through. -/
theorem startsAlike_iff (live : (s.locals c).crashed = false)
    (huser : (s.locals c).currentUser = some user) (hlocation : (s.locals c).userLocation = some place) :
    StartsAlike P now c map user.email place s ↔
      SameWithin P now place (.fin 40225) (storedRadius s.store user.email)
        (s.store.docs .userPlaylists) := by
  rw [sameWithin_iff]
  constructor
  · rintro ⟨-, hstored⟩
    obtain ⟨ls, s', hrun, hs', hearly⟩ :=
      startUp_early (P := P) now map live huser hlocation
    have hpins := (List.perm_append_left_iff _).mp (hearly.symm.trans (hstored ls s' hrun hs'))
    exact userPin_eq_of_length ((List.perm_append_left_iff _).mp hpins).length_eq
  · intro hsame
    have hpins : ∀ ls s', Run (app P) (fun _ ℓ => undisturbed now ℓ = true) (starting c map s) ls s' →
        Delivered s' → ((s'.locals c).annotations map).Perm ((s.locals c).annotations map ++
          startPins P now place (storedRadius s.store user.email) s.store) := by
      intro ls s' hrun hs'
      obtain ⟨-, mapRadius, hradius, hperm⟩ := startUp_settles live huser hlocation hrun hs'
      rcases hradius with rfl | rfl
      · rw [startPins, show UserSingleton.reset.mapRadius = .fin 40225 from rfl,
          List.filterMap_congr hsame] at hperm
        exact hperm
      · rw [loadedInfo_mapRadius] at hperm
        exact hperm
    refine ⟨fun ls ls' s₁ s₂ hrun₁ hs₁ hrun₂ hs₂ => ⟨?_, ?_⟩, hpins⟩
    · exact (hpins ls s₁ hrun₁ hs₁).trans (hpins ls' s₂ hrun₂ hs₂).symm
    · rw [(startUp_settles live huser hlocation hrun₁ hs₁).1,
        (startUp_settles live huser hlocation hrun₂ hs₂).1]

def oneMile (meters : ℚ) : State where
  store := .of [] [Dict.fields (Request.playlistDict "Road" "cleo" "cleo@mail.org"
      ⟨.fin meters, .fin 0⟩ defaultLink) 0]
    [Dict.fields [(.username, .value (.string "cleo")), (.email, .value (.string "cleo@mail.org")),
      (.mapRadius, .value (.number (.fin 1)))] 0] []
  locals _ := { Device.launched with
    currentUser := some ⟨0, "cleo@mail.org"⟩
    userLocation := some ⟨.fin 0, .fin 0⟩ }
  jobs := []

theorem startUp_alike :
    StartsAlike .sample 0 0 0 "cleo@mail.org" ⟨.fin 0, .fin 0⟩ (oneMile 500) :=
  (startsAlike_iff rfl (show _ = some (⟨0, "cleo@mail.org"⟩ : User) from rfl) rfl).mpr
    (sameWithin_iff.mpr (by decide +kernel))

def infoFirst : List Label :=
  [.effect 0 0, .effect 1 0, .effect 2 0, .deliver 2 0, .deliver 0 0, .deliver 0 0]

def pinsFirst : List Label :=
  [.effect 0 0, .effect 1 0, .effect 2 0, .deliver 1 0, .deliver 0 0, .deliver 0 0]

/-- **A playlist between the two radii**: it is shown in one order and not in the other. -/
theorem startUp_differs :
    ¬ StartsAlike .sample 0 0 0 "cleo@mail.org" ⟨.fin 0, .fin 0⟩ (oneMile 2000) := by
  rintro ⟨halike, -⟩
  obtain ⟨s₁, hrun₁, hs₁⟩ := Run.exists_of_run (P := app .sample) (G := fun _ => undisturbed 0)
    (s := starting 0 0 (oneMile 2000)) (l := infoFirst)
    (Q := fun s' => s'.jobs.isEmpty && (s'.locals 0).annotations 0 = []) (by decide +kernel)
  obtain ⟨s₂, hrun₂, hs₂⟩ := Run.exists_of_run (P := app .sample) (G := fun _ => undisturbed 0)
    (s := starting 0 0 (oneMile 2000)) (l := pinsFirst)
    (Q := fun s' => s'.jobs.isEmpty && !((s'.locals 0).annotations 0).isEmpty) (by decide +kernel)
  simp only [Bool.and_eq_true, decide_eq_true_eq, List.isEmpty_iff, Bool.not_eq_true',
    List.isEmpty_eq_false_iff] at hs₁ hs₂
  have hdelivered : ∀ {s : State}, s.jobs = [] → Delivered s := by
    intro s hs j hj
    rw [hs] at hj
    exact absurd hj List.not_mem_nil
  have hperm := (halike _ _ s₁ s₂ hrun₁ (hdelivered hs₁.1) hrun₂ (hdelivered hs₂.1)).1
  rw [hs₁.2] at hperm
  exact hs₂.2 hperm.nil_eq.symm

end SpotiFriend

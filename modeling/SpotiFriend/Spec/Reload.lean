import SpotiFriend.Spec.Documents
import SpotiFriend.Spec.Actions

/-!
# What a load shows

`addStaticAnnotations` and `addUserAnnotations` as filters: the first gives a pin to every
document that an annotation can be made of, the second to those of them that `userPin`
lets through, and it deletes those that are `expired`.

* `addStaticAnnotationsReply_apply`, `addUserAnnotationsReply_apply`: the two handlers;
* `updateAnnotations_apply`: the reload that makes the two calls.
-/

namespace SpotiFriend

open SpotiFriend.Action

def Backend.docs (b : Backend) (coll : CollectionName) : List Doc := (b.firestore coll).docs

theorem Backend.getDocuments_all (b : Backend) (coll : CollectionName) :
    b.getDocuments (.all coll) = b.docs coll := List.filter_true _

theorem Backend.setCollection_setCollection (b : Backend) (coll : CollectionName)
    (C C' : Store.Collection Fields) :
    (b.setCollection coll C).setCollection coll C' = b.setCollection coll C' := by
  rw [setCollection, setCollection, setCollection, Function.update_idem]

namespace MapVC

/-- The playlist is older than seven days. -/
def expired (P : Platform) (now : ℤ) (doc : Doc) : Bool :=
  (getTimestamp doc.data .date).any (fun dateUploaded => 7 < P.days dateUploaded now)

def within (P : Platform) (location : Option Coordinate) (mapRadius : Double) (a : Annotation) :
    Bool := location.any (fun l => (P.distance l a.coordinate).le mapRadius)

/-- The pin that a document of `userPlaylists` gets. -/
def userPin (P : Platform) (now : ℤ) (location : Option Coordinate) (mapRadius : Double)
    (doc : Doc) : Option Annotation :=
  if (getTimestamp doc.data .date).isSome && !expired P now doc then
    (annotationOf doc.data).filter (within P location mapRadius)
  else none

/-- The pin that a document of `masterPlaylists` gets. -/
def staticPin (doc : Doc) : Option Annotation := annotationOf doc.data

/-- The field holds the number, or a boolean, which counts as `1` or `0`. -/
def HoldsNumber (v : Option Value) (x : Double) : Prop :=
  v = some (.number x) ∨ v = some (.bool true) ∧ x = .fin 1 ∨ v = some (.bool false) ∧ x = .fin 0

/-- The playlist has the title, the author and the place that the pin shows. -/
def PinFor (f : Fields) (a : Annotation) : Prop :=
  f .title = some (.string a.title) ∧ f .author = some (.string a.subtitle) ∧
    HoldsNumber (f .latitude) a.coordinate.latitude ∧
    HoldsNumber (f .longitude) a.coordinate.longitude

/-- The playlist has a date, and was added more than seven days ago. -/
def Outdated (P : Platform) (now : ℤ) (f : Fields) : Prop :=
  ∃ date, f .date = some (.timestamp date) ∧ 7 < P.days date now

/-- The playlist has a date, and was added at most seven days ago. -/
def Recent (P : Platform) (now : ℤ) (f : Fields) : Prop :=
  ∃ date, f .date = some (.timestamp date) ∧ P.days date now ≤ 7

instance (v : Option Value) (x : Double) : Decidable (HoldsNumber v x) :=
  inferInstanceAs (Decidable (_ ∨ _))

instance (f : Fields) (a : Annotation) : Decidable (PinFor f a) :=
  inferInstanceAs (Decidable (_ ∧ _))

theorem getTimestamp_eq_some {f : Fields} {k : Field} {t : ℤ} :
    getTimestamp f k = some t ↔ f k = some (.timestamp t) := by
  rw [getTimestamp, Option.bind_eq_some_iff]
  constructor
  · rintro ⟨v, hv, ht⟩
    cases v with
    | timestamp t' =>
      cases ht
      exact hv
    | _ => cases ht
  · exact fun h => ⟨_, h, rfl⟩

instance (P : Platform) (now : ℤ) (f : Fields) : Decidable (Recent P now f) :=
  decidable_of_iff ((getTimestamp f .date).any (fun date => P.days date now ≤ 7) = true) (by
    simp only [Option.any_eq_true, getTimestamp_eq_some, decide_eq_true_eq, Recent])

theorem expired_iff {P : Platform} {now : ℤ} {doc : Doc} :
    expired P now doc = true ↔ Outdated P now doc.data := by
  simp only [expired, Option.any_eq_true, getTimestamp_eq_some, decide_eq_true_eq, Outdated]

theorem getDouble_eq_some {f : Fields} {k : Field} {x : Double} :
    getDouble f k = some x ↔ HoldsNumber (f k) x := by
  rw [getDouble, HoldsNumber]
  cases f k with
  | none => simp
  | some v =>
    rw [Option.bind_some, Value.asDouble_eq_some, Bool.exists_bool]
    simp [or_comm]

/-- **What an annotation is made of.** -/
theorem annotationOf_eq_some {f : Fields} {a : Annotation} :
    annotationOf f = some a ↔ PinFor f a := by
  have hstring : ∀ {k s}, getString f k = some s ↔ f k = some (.string s) := by
    intro k s
    simp only [getString, Option.bind_eq_some_iff, Value.asString_eq_some, exists_eq_right]
  rw [PinFor, ← hstring, ← hstring, ← getDouble_eq_some, ← getDouble_eq_some, annotationOf]
  split
  · next htitle hauthor hlat hlong =>
    rw [htitle, hauthor, hlat, hlong, Option.some_inj]
    constructor
    · rintro rfl
      exact ⟨rfl, rfl, rfl, rfl⟩
    · rintro ⟨⟨⟩, ⟨⟩, ⟨⟩, ⟨⟩⟩
      rfl
  · next hnot =>
    exact ⟨nofun, fun ⟨htitle, hauthor, hlat, hlong⟩ =>
      absurd hlong (hnot _ _ _ _ htitle hauthor hlat)⟩

/-- **The filter of `addUserAnnotations`** in the words of its tests. -/
theorem userPin_eq_some {P : Platform} {now : ℤ} {place : Coordinate} {mapRadius : Double} {doc : Doc}
    {a : Annotation} : userPin P now (some place) mapRadius doc = some a ↔
      annotationOf doc.data = some a ∧
      (∃ dateUploaded, getTimestamp doc.data .date = some dateUploaded ∧
        P.days dateUploaded now ≤ 7) ∧
      (P.distance place a.coordinate).le mapRadius = true := by
  rw [userPin, expired]
  cases hdate : getTimestamp doc.data .date with
  | none => exact ⟨nofun, fun ⟨_, ⟨t, ht, _⟩, _⟩ => nomatch ht⟩
  | some dateUploaded =>
    by_cases hold : 7 < P.days dateUploaded now
    · simp [hold]
    · simp [hold, Option.filter_eq_some_iff, within, Int.not_lt.mp hold]

def withPins (d : Device) (map : VC) (pins : List Annotation) (alerts : List Alert) : Device :=
  { d with
    annotations := Function.update d.annotations map (d.annotations map ++ pins)
    alerts := alerts }

variable {P : Platform} {d : Device} {map : VC} {now : ℤ}

theorem withPins_alerts (d : Device) (map : VC) (l : List Alert) :
    withPins d map [] l = { d with alerts := l } := by
  rw [withPins, List.append_nil, Function.update_eq_self]

theorem withPins_nil (d : Device) (map : VC) : withPins d map [] d.alerts = d := withPins_alerts ..

theorem withPins_withPins (pins pins' : List Annotation) (l l' : List Alert) :
    withPins (withPins d map pins l) map pins' l' = withPins d map (pins ++ pins') l' := by
  simp only [withPins, Function.update_self, Function.update_idem, List.append_assoc]

theorem withPins_annotations (pins : List Annotation) (l : List Alert) :
    (withPins d map pins l).annotations map = d.annotations map ++ pins := Function.update_self ..

/-- **The handler of `addStaticAnnotations`**: a pin for each document that has what a pin
needs. -/
theorem addStaticAnnotationsReply_apply (map : VC) (docs : List Doc) : ∀ {d : Device}, d.crashed = false →
    addStaticAnnotationsReply map (.ok docs) d =
      (withPins d map (docs.filterMap staticPin) d.alerts, []) := by
  rw [addStaticAnnotationsReply, orAlert_ok]
  induction docs with
  | nil =>
    intro d _
    rw [List.filterMap_nil, withPins_nil]
    rfl
  | cons doc docs ih =>
    intro d live
    rw [forEach]
    cases ha : annotationOf doc.data with
    | none =>
      rw [andThen_of_live (by exact live),
        List.filterMap_cons_none (show staticPin doc = none from ha)]
      exact Prod.ext (congrArg Prod.fst (ih live)) (congrArg Prod.snd (ih live))
    | some a =>
      have hround : addAnnotation map a d = (withPins d map [a] d.alerts, []) := rfl
      rw [andThen_of_live (by exact live),
        List.filterMap_cons_some (show staticPin doc = some a from ha)]
      simp only [hround]
      rw [ih (d := withPins d map [a] d.alerts) live, withPins_withPins]
      rfl

theorem addUserAnnotation_apply (P : Platform) (map : VC) (now : ℤ) (d : Device) (doc : Doc) :
    ∃ l, addUserAnnotation P map now doc d =
      (withPins d map (userPin P now d.userLocation d.sharedUserInfo.mapRadius doc).toList l,
        if expired P now doc then [.deleteOldPlaylist doc.id] else []) := by
  unfold addUserAnnotation
  rw [userPin]
  cases hdate : getTimestamp doc.data .date with
  | none => exact ⟨d.alerts, by simp [expired, hdate, withPins_nil]⟩
  | some dateUploaded =>
    by_cases hold : 7 < P.days dateUploaded now
    · exact ⟨d.alerts, by simp [expired, hdate, hold, withPins_nil]⟩
    · cases ha : annotationOf doc.data with
      | none => exact ⟨d.alerts, by simp [expired, hdate, hold, withPins_nil]⟩
      | some a =>
        cases hlocation : d.userLocation with
        | none =>
          refine ⟨d.alerts ++ [⟨"Error", "Error in displaying map annotations within radius"⟩], ?_⟩
          simp only [expired, hdate, hold, decide_false, Option.any_some, ↓reduceIte]
          rw [hlocation]
          simp [within, withPins, makeAlert]
        | some location =>
          refine ⟨d.alerts, ?_⟩
          by_cases hnear : (P.distance location a.coordinate).le d.sharedUserInfo.mapRadius = true
          · simp [expired, hdate, hold, hlocation, Option.filter, within, hnear, withPins, addAnnotation]
          · simp [expired, hdate, hold, hlocation, Option.filter, within, hnear, withPins_nil]

/-- **The handler of `addUserAnnotations`**: a pin for each document that `userPin` lets
through, and a deletion for each that is expired. -/
theorem addUserAnnotationsReply_apply (P : Platform) (map : VC) (now : ℤ) (docs : List Doc) :
    ∀ {d : Device}, d.crashed = false →
    ∃ l, addUserAnnotationsReply P map now (.ok docs) d =
      (withPins d map
        (docs.filterMap (userPin P now d.userLocation d.sharedUserInfo.mapRadius)) l,
        (docs.filter (expired P now)).map (fun doc => .deleteOldPlaylist doc.id)) := by
  rw [addUserAnnotationsReply, orAlert_ok]
  induction docs with
  | nil => exact fun {d} _ => ⟨d.alerts, by rw [List.filterMap_nil, withPins_nil]; rfl⟩
  | cons doc docs ih =>
    intro d live
    obtain ⟨l, hround⟩ := addUserAnnotation_apply P map now d doc
    obtain ⟨l', hrest⟩ := ih (d := withPins d map
      (userPin P now d.userLocation d.sharedUserInfo.mapRadius doc).toList l) live
    refine ⟨l', ?_⟩
    rw [forEach, andThen_of_live (by rw [hround]; exact live), hround]
    simp only
    rw [hrest, withPins_withPins]
    refine Prod.ext ?_ ?_
    · show withPins d map _ l' = withPins d map _ l'
      congr 1
      cases hpin : userPin P now d.userLocation d.sharedUserInfo.mapRadius doc with
      | none => rw [List.filterMap_cons_none hpin]; rfl
      | some a => rw [List.filterMap_cons_some hpin]; rfl
    · by_cases hold : expired P now doc = true
      · simp [hold]
      · simp [hold]

/-- The map is cleared at once, and the two queries are made. -/
theorem updateAnnotations_apply (live : d.crashed = false) : updateAnnotations map d =
    ({ d with annotations := Function.update d.annotations map [] },
      [.addStaticAnnotations map, .addUserAnnotations map]) := by
  rw [updateAnnotations, andThen_of_live (by exact live), modify_apply, addStaticAnnotations]
  dsimp only
  rw [andThen_issue _ (by exact live)]
  rfl

theorem viewDidLoad_apply (live : d.crashed = false) :
    viewDidLoad map d = (d, [.addStaticAnnotations map, .addUserAnnotations map]) := by
  rw [viewDidLoad, addStaticAnnotations, andThen_issue _ live]
  rfl

theorem zoomToLatestLoc_apply (live : d.crashed = false) (coord : Coordinate) :
    zoomToLatestLoc map coord d =
      ({ d with
        annotations := Function.update d.annotations map []
        region := Function.update d.region map
          (some ⟨coord, d.sharedUserInfo.mapRadius, d.sharedUserInfo.mapRadius⟩) },
        [.addStaticAnnotations map, .addUserAnnotations map]) := by
  rw [zoomToLatestLoc, andThen_of_live (by rw [updateAnnotations_apply live]; exact live),
    updateAnnotations_apply live]
  rfl

end MapVC

end SpotiFriend

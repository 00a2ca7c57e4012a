import SpotiFriend.Async.Run
import SpotiFriend.Concurrent.Uploads

/-!
# Profile pictures that are lost

A pick deletes the picture that the singleton names before the URL of the new one is stored.
The history of a run says when that picture is the one that the document names, which deletions
come through, and when a URL is stored; `lost` reads off it whether the document is left with
the URL of a deleted picture.

* `Replacing.step`: what the history says of the pictures;
* `shown_iff`: the stored URL names a picture exactly when none is lost;
* `shown_of_stored`: so it does where none of the last two calls of a pick fails.
-/

namespace SpotiFriend

open Async SpotiFriend.Action ProfileVC

/-- The profile picture that the document `id` names, if any, is in Storage. -/
def Shown (P : Platform) (id : ℕ) (b : Backend) : Prop :=
  ∀ url ∈ (b.field .userInfo id .profilePicURL).bind Value.asString,
    ∃ name ∈ b.media, url = P.downloadURL name

instance (P : Platform) (id : ℕ) (b : Backend) : Decidable (Shown P id b) :=
  inferInstanceAs (Decidable (∀ url ∈ _, _))

/-- What a move adds to the history, told by the state before it. -/
def marks (P : Platform) (id : ℕ) (s : State) : Label → List Mark
  | .deliver i _ => match s.jobs[i]? with
    | some ⟨c, .pictureURL _, some (.ok _)⟩ =>
      match oldUUID (s.locals c).sharedUserInfo.profilePicURL with
      | some name => if Names P id s.store name then [.condemned name] else []
      | none => []
    | _ => []
  | .effect i _ => (s.jobs[i]?).elim [] (fun j => noted j.request)
  | .event _ _ => []
  | .fail _ _ => []

/-- The picture is condemned, and no URL is stored after that. -/
def condemned (name : String) : List Mark → Bool
  | [] => false
  | m :: h => m = .condemned name && !h.contains .stored || condemned name h

/-- A picture is condemned; after that it is deleted, and no URL is stored. -/
def lost : List Mark → Bool
  | [] => false
  | .condemned name :: h => h.contains (.deleted name) && !h.contains .stored || lost h
  | _ :: h => lost h

/-- The query and the `setData` of a pick do not fail. -/
def storing (s : State) : Label → Bool
  | .fail i _ => s.jobs[i]?.all (fun j => !late j)
  | _ => true

variable {P : Platform} {s s' : State} {ℓ : Label} {ls : List Label} {c id : ℕ} {email : String}
  {b b' : Backend} {d : Device} {j j' : Job} {m : ℤ} {name : String}

theorem Shown.congr (hdocs : b'.firestore = b.firestore)
    (hmedia : ∀ name, Names P id b name → (name ∈ b'.media ↔ name ∈ b.media)) :
    Shown P id b' ↔ Shown P id b := by
  have hfield : b'.field .userInfo id .profilePicURL = b.field .userInfo id .profilePicURL := by
    rw [Backend.field, Backend.field, Backend.doc?, Backend.doc?, hdocs]
  rw [Shown, Shown, hfield]
  refine forall₂_congr (fun url hurl => exists_congr (fun name => and_congr_left ?_))
  rintro rfl
  exact hmedia name hurl

theorem Names.shown_iff_mem (hinj : Function.Injective P.downloadURL) (h : Names P id b name) :
    Shown P id b ↔ name ∈ b.media := by
  constructor
  · intro hshown
    obtain ⟨name', hmem, hname'⟩ := hshown _ h
    exact hinj hname' ▸ hmem
  · rintro hmem url hurl
    exact ⟨name, hmem, Option.some.inj (hurl.symm.trans h)⟩

theorem Names.inj (hinj : Function.Injective P.downloadURL) {name' : String}
    (h : Names P id b name) (h' : Names P id b name') : name = name' :=
  hinj (Option.some.inj (h.symm.trans h'))

theorem spends_of_delete (h : j.request = .deletePicture name) : spends j = some name := by
  obtain ⟨c, r, reply⟩ := j
  cases h
  rfl

section Lost

variable {h : List Mark}

theorem condemned_append {m : Mark} : condemned name (h ++ [m]) =
    (decide (m = .condemned name) || decide (m ≠ .stored) && condemned name h) := by
  induction h with
  | nil => simp [condemned]
  | cons m' h ih =>
    rw [List.cons_append, condemned, condemned, ih]
    cases m with
    | stored => simp
    | condemned | deleted => simp [Bool.or_left_comm]

theorem lost_append_condemned : lost (h ++ [.condemned name]) = lost h := by
  induction h with
  | nil => simp [lost]
  | cons m h ih => cases m <;> simp [lost, ih]

theorem lost_append_deleted : lost (h ++ [.deleted name]) = (condemned name h || lost h) := by
  induction h with
  | nil => rfl
  | cons m h ih =>
    cases m with
    | condemned name' =>
      simp only [List.cons_append, lost, condemned, ih]
      simp
      grind
    | deleted name' | stored => simp [lost, condemned, ih]

theorem lost_append_stored : lost (h ++ [.stored]) = false := by
  induction h with
  | nil => rfl
  | cons m h ih => cases m <;> simp [lost, ih]

end Lost

structure Replacing (P : Platform) (id : ℕ) (h : List Mark) (s : State) : Prop where
  fresh : ∀ j ∈ s.jobs, ∀ name, carries j = some name → ¬ Names P id s.store name
  named : ∀ name, condemned name h = true → Names P id s.store name
  asked : ∀ j ∈ s.jobs, ∀ name, j.request = .deletePicture name → j.reply = none →
    Names P id s.store name → condemned name h = true
  shown : Shown P id s.store ↔ lost h = false

section

variable {h : List Mark} (hinj : Function.Injective P.downloadURL)
  (hbucket : Text.hasInfix "media%2F".toList P.bucket.toList = false)

include hinj hbucket

/-- **A call of a pick** that comes through. -/
theorem Replacing.effect {js₁ js₂ : List Job} {m : ℤ} (hup : Uploading P c email id s)
    (hrep : Replacing P id h s) (split : s.jobs = js₁ ++ j :: js₂) (waiting : j.reply = none) :
    Replacing P id (h ++ noted j.request)
      (s.settle (j.request.operation.exec P m s.store).1
        (js₁ ++ j.answer (j.request.operation.exec P m s.store).2 :: js₂)) := by
  have hj := mem_of_split split
  have hothers := hup.distinct
  rw [split, List.pairwise_middle Distinct.symm] at hothers
  have hothers := (List.pairwise_cons.mp hothers).1
  have hsettled : ∀ {x j' : Job}, j' ∈ js₁ ++ x :: js₂ → j' = x ∨ j' ∈ js₁ ++ js₂ :=
    fun hj' => List.mem_cons.mp (List.perm_middle.mem_iff.mp hj')
  have hrest := (rest_sublist split).subset
  have hfresh : ∀ j' ∈ js₁ ++ j.answer (j.request.operation.exec P m s.store).2 :: js₂,
      ∀ name, carries j' = some name → ¬ Names P id s.store name := by
    intro j' hj' name hcarries
    rcases mem_of_settled split hj' with rfl | hj'
    · exact hrep.fresh j hj name ((answer_carries waiting).1 name hcarries)
    · exact hrep.fresh j' hj' name hcarries
  have hasked : ∀ j' ∈ js₁ ++ j.answer (j.request.operation.exec P m s.store).2 :: js₂,
      ∀ name, j'.request = .deletePicture name → j'.reply = none → Names P id s.store name →
        condemned name h = true := by
    intro j' hj' name hdelete waiting'
    rcases mem_of_settled split hj' with rfl | hj'
    · cases waiting'
    · exact hrep.asked j' hj' name hdelete waiting'
  rcases effect_uploads hbucket (m := m) (hup.jobs j hj) waiting hup.owner with
    ⟨name, rfl⟩ | hproceeds
  · rw [exec_deletePicture]
    have hnames : ∀ name', Names P id (s.store.setMedia (s.store.media.filter (· ≠ name))) name' ↔
        Names P id s.store name' := fun _ => Names.iff_of_docs rfl
    have hcondemned : ∀ name', condemned name' (h ++ [.deleted name]) = condemned name' h :=
      fun name' => condemned_append.trans (by simp)
    refine ⟨fun j' hj' name' hcarries hnamed =>
        hfresh j' hj' name' hcarries ((hnames name').mp hnamed),
      fun name' h' => (hnames name').mpr (hrep.named name' ((hcondemned name').symm.trans h')),
      fun j' hj' name' hdelete waiting' hnamed => (hcondemned name').trans
        (hasked j' hj' name' hdelete waiting' ((hnames name').mp hnamed)), ?_⟩
    -- the deletion costs the picture that the document names, which is condemned
    rw [State.settle_store]
    show _ ↔ lost (h ++ [.deleted name]) = false
    rw [lost_append_deleted]
    by_cases hnamed : Names P id s.store name
    · rw [hrep.asked _ hj name rfl rfl hnamed, Bool.true_or,
        ((hnames name).mpr hnamed).shown_iff_mem hinj]
      simp [Backend.setMedia]
    · rw [Bool.eq_false_iff.mpr (fun h => hnamed (hrep.named name h)), Bool.false_or, ← hrep.shown]
      refine Shown.congr rfl (fun name' hname' => ?_)
      have hne : name' ≠ name := fun h => hnamed (h ▸ hname')
      simp [Backend.setMedia, hne]
  · obtain ⟨hmedia, -, -, -, ⟨hdocs, hnoted, hnew⟩ |
      ⟨name, hcarries, hdone, hnamed, hmem, hnoted⟩⟩ := hproceeds
    · rw [hnoted, List.append_nil]
      have hnames : ∀ name', Names P id (j.request.operation.exec P m s.store).1 name' ↔
          Names P id s.store name' := fun _ => Names.iff_of_docs hdocs
      refine ⟨fun j' hj' name' hcarries hnamed =>
          hfresh j' hj' name' hcarries ((hnames name').mp hnamed),
        fun name' h' => (hnames name').mpr (hrep.named name' h'),
        fun j' hj' name' hdelete waiting' hnamed =>
          hasked j' hj' name' hdelete waiting' ((hnames name').mp hnamed), ?_⟩
      -- the picture that is put is not the one that the document names
      rw [← hrep.shown]
      refine Shown.congr hdocs (fun name' hname' => ⟨fun hmem => ?_, hmedia name'⟩)
      exact (hnew name' hmem).resolve_right (fun hcarries => hrep.fresh j hj name' hcarries hname')
    · -- no other call carries or deletes the picture whose URL is stored
      rw [hnoted]
      refine ⟨?_, fun name' h' => ?_, ?_,
        iff_of_true ((hnamed.shown_iff_mem hinj).mpr hmem) lost_append_stored⟩
      · intro j' hj' name' hcarries' hnamed'
        obtain rfl := hnamed.inj hinj hnamed'
        rcases hsettled hj' with rfl | hj'
        · cases hdone.symm.trans hcarries'
        · exact ((hothers j' hj' name).1 hcarries).1 hcarries'
      · rw [condemned_append] at h'
        simp at h'
      · intro j' hj' name' hdelete waiting' hnamed'
        obtain rfl := hnamed.inj hinj hnamed'
        rcases hsettled hj' with rfl | hj'
        · cases waiting'
        · exact absurd (spends_of_delete hdelete) ((hothers j' hj' name).1 hcarries).2

omit hinj in
/-- **A handler of a pick** condemns the picture that it asks to delete. -/
theorem Replacing.deliver {js₁ js₂ : List Job} {m : ℤ} {a : Except String j.request.Answer}
    (hup : Uploading P c email id s) (hrep : Replacing P id h s) (split : s.jobs = js₁ ++ j :: js₂)
    (answered : j.reply = some a) (live : (s.locals j.client).crashed = false) :
    Replacing P id (h ++ marks P id s (.deliver js₁.length m))
      (s.proceed j.client (js₁ ++ js₂) (resume P j.request m a (s.locals j.client))) := by
  have hj := mem_of_split split
  have hrest := (rest_sublist split).subset
  obtain rfl := (hup.jobs j hj).client
  have hhandled := deliver_uploads hbucket (m := m) (hup.jobs j hj) answered live hup.shared
  -- the history gets nothing, or a picture that the document names
  have hmarks : marks P id s (.deliver js₁.length m) = [] ∨ ∃ name, Names P id s.store name ∧
      marks P id s (.deliver js₁.length m) = [.condemned name] := by
    rw [marks]
    split
    · split
      · split
        · next hnamed => exact .inr ⟨_, hnamed, rfl⟩
        · exact .inl rfl
      · exact .inl rfl
    · exact .inl rfl
  have hcondemned : ∀ name, condemned name h = true →
      condemned name (h ++ marks P id s (.deliver js₁.length m)) = true := by
    intro name hname
    rcases hmarks with hnone | ⟨name', -, hsome⟩
    · rwa [hnone, List.append_nil]
    · rw [hsome, condemned_append, hname]
      simp
  generalize hp : resume P j.request m a (s.locals j.client) = p at hhandled ⊢
  have hissued : ∀ r ∈ p.2,
      (∀ name, carries (.issue j.client r) = some name → carries j = some name) ∧
      ∀ name, r = .deletePicture name → Names P id s.store name →
        marks P id s (.deliver js₁.length m) = [.condemned name] := by
    cases hhandled with
    | idle | stored | crash => exact fun _ hr => absurd hr List.not_mem_nil
    | @next d' r name _ hcarries _ hnext _ _ =>
      intro r' hr'
      obtain rfl := List.mem_singleton.mp hr'
      refine ⟨fun name' hname' => hcarries.trans (hnext.symm.trans hname'), fun name' hdelete => ?_⟩
      cases (carries_of_delete (j := .issue j.client r') hdelete).symm.trans hnext
    | @replace d' r name old _ hcarries _ hnext _ hold hurl =>
      intro r' hr'
      rcases List.mem_pair.mp hr' with rfl | rfl
      · refine ⟨nofun, fun name' hdelete hnamed => ?_⟩
        cases hdelete
        have hget := getElem?_split split
        rw [hurl] at hget
        rw [marks, hget]
        dsimp only
        rw [hold]
        exact if_pos hnamed
      · refine ⟨fun name' hname' => hcarries.trans (hnext.symm.trans hname'),
          fun name' hdelete => ?_⟩
        cases (carries_of_delete (j := .issue j.client r') hdelete).symm.trans hnext
  refine ⟨?_, ?_, ?_, ?_⟩
  · intro j' hj' name hcarries
    rcases List.mem_append.mp hj' with hj' | hj'
    · exact hrep.fresh j' (hrest hj') name hcarries
    · obtain ⟨r, hr, rfl⟩ := List.mem_map.mp hj'
      exact hrep.fresh j hj name ((hissued r hr).1 name hcarries)
  · intro name hname
    rcases hmarks with hnone | ⟨name', hnamed, hsome⟩
    · rw [hnone, List.append_nil] at hname
      exact hrep.named name hname
    · rw [hsome, condemned_append] at hname
      simp at hname
      rcases hname with rfl | hname
      · exact hnamed
      · exact hrep.named name hname
  · intro j' hj' name hdelete waiting hnamed
    rcases List.mem_append.mp hj' with hj' | hj'
    · exact hcondemned name (hrep.asked j' (hrest hj') name hdelete waiting hnamed)
    · obtain ⟨r, hr, rfl⟩ := List.mem_map.mp hj'
      rw [(hissued r hr).2 name hdelete hnamed, condemned_append]
      simp
  · rcases hmarks with hnone | ⟨name', -, hsome⟩
    · rw [hnone, List.append_nil]
      exact hrep.shown
    · rw [hsome, lost_append_condemned]
      exact hrep.shown

/-- **A move of the picks** decides what is lost. -/
theorem Replacing.step (hup : Uploading P c email id s) (hrep : Replacing P id h s)
    (guard : picking P c id s ℓ = true) (move : Step (app P) s ℓ s') :
    Replacing P id (h ++ marks P id s ℓ) s' := by
  cases move with
  | event c' e live =>
    obtain ⟨uuid, rfl, rfl, -, hunused⟩ := pick_of_guard guard
    rw [marks, List.append_nil]
    refine ⟨fun j hj name hcarries => ?_, hrep.named, fun j hj name hdelete => ?_, hrep.shown⟩
    · rcases List.mem_append.mp hj with hj | hj
      · exact hrep.fresh j hj name hcarries
      · obtain rfl := List.mem_singleton.mp hj
        cases hcarries
        exact (unused_iff.mp hunused).2.1
    · rcases List.mem_append.mp hj with hj | hj
      · exact hrep.asked j hj name hdelete
      · obtain rfl := List.mem_singleton.mp hj
        cases hdelete
  | @effect js₁ js₂ j m split waiting =>
    rw [marks, getElem?_split split]
    exact hrep.effect hinj hbucket hup split waiting
  | @fail js₁ js₂ j err split waiting =>
    rw [marks, List.append_nil]
    refine ⟨fun j' hj' name hcarries => ?_, hrep.named,
      fun j' hj' name hdelete waiting' => ?_, hrep.shown⟩
    · rcases mem_of_settled split hj' with rfl | hj'
      · cases carries_error.symm.trans hcarries
      · exact hrep.fresh j' hj' name hcarries
    · rcases mem_of_settled split hj' with rfl | hj'
      · cases waiting'
      · exact hrep.asked j' hj' name hdelete waiting'
  | @deliver js₁ js₂ j m a split answered live =>
    exact hrep.deliver hbucket hup split answered (by simpa using live)

omit hinj hbucket in
theorem Uploading.start (howner : Owner s.store email id)
    (hshared : (s.locals c).sharedUserInfo.email = email) (hjobs : s.jobs = []) :
    Uploading P c email id s := by
  refine ⟨howner, hshared, ?_, ?_, ?_⟩ <;> rw [hjobs]
  · exact fun _ hj => absurd hj List.not_mem_nil
  · exact .nil
  · exact fun _ hj => absurd hj List.not_mem_nil

omit hinj hbucket in
theorem Replacing.start (hstored : Shown P id s.store) (hjobs : s.jobs = []) :
    Replacing P id [] s := by
  refine ⟨?_, nofun, ?_, iff_of_true hstored rfl⟩ <;> rw [hjobs]
  · exact fun _ hj => absurd hj List.not_mem_nil
  · exact fun _ hj => absurd hj List.not_mem_nil

/-- **The stored URL names a picture** if and only if none is lost: no deletion came through of
a picture that the document named when it was asked for, with no URL stored since. -/
theorem shown_iff (howner : Owner s.store email id)
    (hshared : (s.locals c).sharedUserInfo.email = email) (hstored : Shown P id s.store)
    (hjobs : s.jobs = []) (hrun : Run (app P) (fun s ℓ => picking P c id s ℓ = true) s ls s') :
    Shown P id s'.store ↔ lost (collect (app P) (marks P id) s ls) = false := by
  have hend : Uploading P c email id s' ∧ Replacing P id (collect (app P) (marks P id) s ls) s' :=
    Run.history (I := fun h s => Uploading P c email id s ∧ Replacing P id h s)
      (fun _ _ _ _ h guard move =>
        ⟨h.1.step hbucket guard move, h.2.step hinj hbucket h.1 guard move⟩)
      hrun (h := []) ⟨.start howner hshared hjobs, .start hstored hjobs⟩
  exact hend.2.shown

omit hinj hbucket in
theorem condemned_of_lost (hlost : lost h = true) : ∃ name, condemned name h = true := by
  induction h with
  | nil => cases hlost
  | cons m h ih =>
    have hcons : (∃ name, condemned name h = true) → ∃ name, condemned name (m :: h) = true :=
      fun ⟨name, hname⟩ => ⟨name, by rw [condemned, hname, Bool.or_true]⟩
    cases m with
    | condemned name =>
      rw [lost, Bool.or_eq_true, Bool.and_eq_true] at hlost
      rcases hlost with ⟨-, hnone⟩ | hlost
      · exact ⟨name, by rw [condemned, hnone]; simp⟩
      · exact hcons (ih hlost)
    | deleted | stored => exact hcons (ih hlost)

omit hinj hbucket in
theorem condemned_noted {r : Request} (hname : condemned name (h ++ noted r) = true) :
    condemned name h = true ∧ noted r ≠ [.stored] := by
  cases r <;> simp_all [noted, condemned_append]

omit hinj hbucket in
theorem late_of_split {js₁ js₂ : List Job} (split : s.jobs = js₁ ++ j :: js₂)
    (h : ∃ j' ∈ s.jobs, late j' = true) : late j = true ∨ ∃ j' ∈ js₁ ++ js₂, late j' = true := by
  obtain ⟨j', hj', hlate⟩ := h
  rw [split] at hj'
  rcases List.mem_cons.mp (List.perm_middle.mem_iff.mp hj') with rfl | hj'
  · exact .inl hlate
  · exact .inr ⟨j', hj', hlate⟩

omit hinj hbucket in
theorem url_of_marks {js₁ js₂ : List Job} {m : ℤ} (split : s.jobs = js₁ ++ j :: js₂)
    (hmarks : marks P id s (.deliver js₁.length m) ≠ []) : ∃ name url old,
      j = ⟨j.client, .pictureURL name, some (.ok url)⟩ ∧
      oldUUID (s.locals j.client).sharedUserInfo.profilePicURL = some old := by
  rw [marks, getElem?_split split] at hmarks
  split at hmarks
  · next hj =>
    cases hj
    split at hmarks
    · next old hold => exact ⟨_, _, old, rfl, hold⟩
    · exact absurd rfl hmarks
  · exact absurd rfl hmarks

omit hinj in
/-- **Where a picture is condemned**, a pick is at one of its last two calls, unless one of these
fails. -/
theorem late_step (hup : Uploading P c email id s)
    (hlate : ∀ name, condemned name h = true → ∃ j ∈ s.jobs, late j = true)
    (hstoring : storing s ℓ = true) (move : Step (app P) s ℓ s') :
    ∀ name, condemned name (h ++ marks P id s ℓ) = true → ∃ j ∈ s'.jobs, late j = true := by
  intro name hname
  cases move with
  | event c' e live =>
    rw [marks, List.append_nil] at hname
    obtain ⟨j, hj, hj'⟩ := hlate name hname
    exact ⟨j, List.mem_append_left _ hj, hj'⟩
  | @effect js₁ js₂ j m split waiting =>
    rw [marks, getElem?_split split, Option.elim] at hname
    obtain ⟨hname, hunstored⟩ := condemned_noted hname
    rcases late_of_split split (hlate name hname) with hlater | ⟨j', hj', hlater⟩
    · refine ⟨_, List.mem_append_cons_self, ?_⟩
      have hj := hup.jobs j (mem_of_split split)
      rcases effect_uploads hbucket (m := m) hj waiting hup.owner with ⟨name', rfl⟩ | hproceeds
      · cases hlater
      · exact (hproceeds.late hlater).resolve_right hunstored
    · exact ⟨j', List.perm_middle.mem_iff.mpr (List.mem_cons_of_mem _ hj'), hlater⟩
  | @fail js₁ js₂ j err split waiting =>
    rw [marks, List.append_nil] at hname
    rw [storing, getElem?_split split, Option.all_some, Bool.not_eq_true'] at hstoring
    rcases late_of_split split (hlate name hname) with hj | ⟨j', hj', hj⟩
    · cases hstoring.symm.trans hj
    · exact ⟨j', List.perm_middle.mem_iff.mpr (List.mem_cons_of_mem _ hj'), hj⟩
  | @deliver js₁ js₂ j m a split answered live =>
    by_cases hmarks : marks P id s (.deliver js₁.length m) = []
    · rw [hmarks, List.append_nil] at hname
      rcases late_of_split split (hlate name hname) with hj | ⟨j', hj', hj⟩
      · obtain rfl := (hup.jobs j (mem_of_split split)).client
        have hhandled := deliver_uploads hbucket (m := m) (hup.jobs j (mem_of_split split)) answered
          (by simpa using live) hup.shared
        rw [app_resume]
        generalize resume P j.request m a (s.locals j.client) = p at hhandled ⊢
        cases hhandled with
        | idle _ _ hnone | stored _ _ _ _ hnone | crash _ hnone => cases hnone.symm.trans hj
        | @next d' r name' _ _ _ _ _ hnext =>
          exact ⟨.issue j.client r, List.mem_append_right _ List.mem_cons_self, hnext hj⟩
        | replace _ _ _ _ _ _ hurl =>
          rw [hurl] at hj
          cases hj
      · exact ⟨j', List.mem_append_left _ hj', hj⟩
    · obtain ⟨name', url, old, hj, hold⟩ := url_of_marks split hmarks
      obtain ⟨c', r, reply⟩ := j
      cases hj
      cases answered
      have hreply : (resume P (.pictureURL name') m (.ok url) (s.locals c')).2 =
          [.deletePicture old, .pictureUserInfo (s.locals c').sharedUserInfo.email url] :=
        congrArg Prod.snd (pictureURLReply_old (by simpa using live) hold)
      refine ⟨.issue c' (.pictureUserInfo (s.locals c').sharedUserInfo.email url),
        List.mem_append_right _ (List.mem_map_of_mem ?_), rfl⟩
      rw [app_resume, hreply]
      exact List.mem_cons_of_mem _ List.mem_cons_self

end

/-- **The stored URL names a picture when all is done** where none of the last two calls of a pick
fails, in whatever order the calls of several picks come through. -/
theorem shown_of_stored (hinj : Function.Injective P.downloadURL)
    (hbucket : Text.hasInfix "media%2F".toList P.bucket.toList = false)
    (howner : Owner s.store email id) (hshared : (s.locals c).sharedUserInfo.email = email)
    (hstored : Shown P id s.store) (hjobs : s.jobs = [])
    (hrun : Run (app P) (fun s ℓ => (picking P c id s ℓ && storing s ℓ) = true) s ls s')
    (hs' : s'.jobs = []) : Shown P id s'.store := by
  have hlate : Uploading P c email id s' ∧
      ∀ name, condemned name (collect (app P) (marks P id) s ls) = true →
        ∃ j ∈ s'.jobs, late j = true := by
    refine Run.history (I := fun h s => Uploading P c email id s ∧
      ∀ name, condemned name h = true → ∃ j ∈ s.jobs, late j = true) ?_ hrun (h := [])
      ⟨.start howner hshared hjobs, nofun⟩
    intro h s ℓ s' ⟨hup, hlate⟩ guard move
    obtain ⟨hpicking, hstoring⟩ := Bool.and_eq_true_iff.mp guard
    exact ⟨hup.step hbucket hpicking move, late_step hbucket hup hlate hstoring move⟩
  have hpicks := hrun.mono (H := fun s ℓ => picking P c id s ℓ = true)
    (fun s ℓ guard => (Bool.and_eq_true_iff.mp guard).1)
  rw [shown_iff hinj hbucket howner hshared hstored hjobs hpicks]
  refine Bool.eq_false_iff.mpr (fun hlost => ?_)
  obtain ⟨name, hname⟩ := condemned_of_lost hlost
  obtain ⟨j, hj, -⟩ := hlate.2 name hname
  rw [hs'] at hj
  cases hj

def withPicture : State where
  store := (Backend.of [] [] [Dict.fields (Request.userDict "cleo" "cleo@mail.org" "secret" ++
    [(.profilePicURL, .value (.string (Platform.sample.downloadURL ("0-A" ++ ".jpg"))))]) 0]
    [⟨"cleo@mail.org", "secret"⟩]).setMedia ["0-A" ++ ".jpg"]
  locals _ := { Device.launched with
    currentUser := some ⟨0, "cleo@mail.org"⟩
    sharedUserInfo := { UserSingleton.reset with
      email := "cleo@mail.org"
      profilePicURL := Platform.sample.downloadURL ("0-A" ++ ".jpg") } }
  jobs := []

def onePick : List Label :=
  [.event 0 (.storeProfilePic "0-F"), .effect 0 0, .deliver 0 0, .effect 0 0, .deliver 0 0,
    .effect 0 0, .effect 1 0, .deliver 0 0, .deliver 0 0]

theorem append_around_inj {pre mid name name' : String}
    (h : pre ++ name ++ mid ++ name = pre ++ name' ++ mid ++ name') : name = name' := by
  have h := congrArg String.toList h
  simp only [String.toList_append, List.append_assoc, List.append_cancel_left_eq] at h
  have hlength := congrArg List.length h
  simp only [List.length_append] at hlength
  exact String.toList_inj.mp (List.append_inj_left h (by omega))

theorem sample_downloadURL_injective : Function.Injective Platform.sample.downloadURL :=
  fun _ _ h => append_around_inj h

/-- The URL is stored. -/
theorem shown_replaced : ∃ s' : State,
    Run (app .sample) (fun s ℓ => picking .sample 0 0 s ℓ = true) withPicture
      (onePick ++ [.effect 0 0, .deliver 0 0]) s' ∧ s'.jobs = [] ∧ Shown .sample 0 s'.store := by
  obtain ⟨s', hrun, hs'⟩ := Run.exists_of_run (P := app .sample) (G := picking .sample 0 0)
    (s := withPicture) (l := onePick ++ [.effect 0 0, .deliver 0 0])
    (Q := fun s' => s'.jobs.isEmpty) (by decide +kernel)
  have hjobs := List.isEmpty_iff.mp hs'
  have howner : Owner withPicture.store "cleo@mail.org" 0 := by decide +kernel
  exact ⟨s', hrun, hjobs, (shown_iff sample_downloadURL_injective (by decide) howner rfl
    (by decide +kernel) rfl hrun).mpr (by decide +kernel)⟩

/-- **The call that stores the URL fails**: the old picture is deleted, and the document still
names it. -/
theorem shown_lost : Owner withPicture.store "cleo@mail.org" 0 ∧ Shown .sample 0 withPicture.store ∧
    withPicture.store.field .userInfo 0 .profilePicURL =
      some (.string (withPicture.locals 0).sharedUserInfo.profilePicURL) ∧
    ∃ ls s', Run (app .sample) (fun s ℓ => picking .sample 0 0 s ℓ = true) withPicture ls s' ∧
      s'.jobs = [] ∧ ¬ Shown .sample 0 s'.store := by
  obtain ⟨s', hrun, hs'⟩ := Run.exists_of_run (P := app .sample) (G := picking .sample 0 0)
    (s := withPicture) (l := onePick ++ [.fail 0 "unavailable", .deliver 0 0])
    (Q := fun s' => s'.jobs.isEmpty && !decide (Shown .sample 0 s'.store)) (by decide +kernel)
  simp only [Bool.and_eq_true, List.isEmpty_iff, Bool.not_eq_true', decide_eq_false_iff_not] at hs'
  exact ⟨by decide +kernel, by decide +kernel, by decide +kernel, _, s', hrun, hs'⟩

end SpotiFriend

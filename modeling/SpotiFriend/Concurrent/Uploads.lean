import SpotiFriend.Async.Jobs
import SpotiFriend.Async.Run
import SpotiFriend.Spec.Documents
import SpotiFriend.Spec.Pictures

/-!
# Profile pictures that are replaced

A pick goes through four calls: the picture is put, its URL asked for, the user's document
looked for, and the URL stored.  The old picture is deleted before the last two.  `Uploads`
says what the calls of the picks carry, and `Uploading` what holds of them together.

* `effect_uploads`, `deliver_uploads`: all that a call or a handler of a pick can do;
* `Uploading.step`: so no two calls carry one picture, and none one that the singleton names.
-/

namespace SpotiFriend

open Async SpotiFriend.Action ProfileVC

def IsPicture (name : String) : Prop :=
  ∃ uuid : String, (∀ c ∈ uuid.toList, isUUIDChar c = true) ∧ name = uuid ++ ".jpg"

/-- The picture that the request, or what follows it, is to store in the document. -/
def picture : Request → Option String
  | .putPicture name => some name
  | .pictureURL name => some name
  | .pictureUserInfo _ imgURL => oldUUID imgURL
  | .storePicture _ imgURL => oldUUID imgURL
  | _ => none

def carries (j : Job) : Option String :=
  match j.reply with
  | none => picture j.request
  | some (.ok _) => match j.request with
    | .storePicture _ _ => none
    | r => picture r
  | some (.error _) => none

def spends (j : Job) : Option String :=
  match j.request with
  | .deletePicture name => some name
  | .storePicture _ imgURL => match j.reply with
    | some (.ok _) => oldUUID imgURL
    | _ => none
  | _ => none

/-- The document `id` names the picture. -/
def Names (P : Platform) (id : ℕ) (b : Backend) (name : String) : Prop :=
  (b.field .userInfo id .profilePicURL).bind Value.asString = some (P.downloadURL name)

instance (P : Platform) (id : ℕ) (b : Backend) (name : String) : Decidable (Names P id b name) :=
  inferInstanceAs (Decidable (_ = _))

/-- The URL of a pick arrives while the document and the singleton name the same picture, which
is condemned by that; a picture is deleted; a URL is stored. -/
inductive Mark
  | condemned (name : String)
  | deleted (name : String)
  | stored
  deriving DecidableEq

def noted : Request → List Mark
  | .deletePicture name => [.deleted name]
  | .storePicture _ _ => [.stored]
  | _ => []

/-- Neither the document, nor the memory of the client `c`, nor a call in flight has the name. -/
def unused (P : Platform) (c id : ℕ) (s : State) (name : String) : Bool :=
  oldUUID (s.locals c).sharedUserInfo.profilePicURL ≠ some name && !Names P id s.store name &&
    s.jobs.all (fun j => carries j ≠ some name && spends j ≠ some name)

/-- The client `c` picks pictures, and each UUID is new; calls may fail. -/
def picking (P : Platform) (c id : ℕ) (s : State) : Label → Bool
  | .event c' (.storeProfilePic uuid) =>
    c' = c && uuid.toList.all isUUIDChar && unused P c id s (uuid ++ ".jpg")
  | .event _ _ => false
  | _ => true

/-- The job is at one of the last two calls of a pick, which may still store the URL. -/
def late (j : Job) : Bool :=
  match j.request, j.reply with
  | .pictureUserInfo _ _, none => true
  | .pictureUserInfo _ _, some (.ok _) => true
  | .storePicture _ _, none => true
  | _, _ => false

/-- The calls of picks, in the order in which they follow each other. -/
inductive Uploads (P : Platform) (c : ℕ) (email : String) (id : ℕ) (b : Backend) : Job → Prop
  | put {name : String} (h : IsPicture name) : Uploads P c email id b ⟨c, .putPicture name, none⟩
  | hasPut {name : String} (h : IsPicture name) (hmem : name ∈ b.media) :
    Uploads P c email id b ⟨c, .putPicture name, some (.ok ())⟩
  | url {name : String} (h : IsPicture name) (hmem : name ∈ b.media) :
    Uploads P c email id b ⟨c, .pictureURL name, none⟩
  | hasURL {name : String} (h : IsPicture name) (hmem : name ∈ b.media) :
    Uploads P c email id b ⟨c, .pictureURL name, some (.ok (P.downloadURL name))⟩
  | query {name : String} (h : IsPicture name) (hmem : name ∈ b.media) :
    Uploads P c email id b ⟨c, .pictureUserInfo email (P.downloadURL name), none⟩
  | found {name : String} {doc : Doc} (h : IsPicture name) (hmem : name ∈ b.media)
    (hdoc : doc.id = id) :
    Uploads P c email id b ⟨c, .pictureUserInfo email (P.downloadURL name), some (.ok [doc])⟩
  | store {name : String} (h : IsPicture name) (hmem : name ∈ b.media) :
    Uploads P c email id b ⟨c, .storePicture id (P.downloadURL name), none⟩
  | stored {name : String} (h : IsPicture name) :
    Uploads P c email id b ⟨c, .storePicture id (P.downloadURL name), some (.ok ())⟩
  | failed {r : Request} {err : String} (h : ∀ d now, (handler P now r (.error err) d).2 = [] ∧
      (handler P now r (.error err) d).1.sharedUserInfo = d.sharedUserInfo) :
    Uploads P c email id b ⟨c, r, some (.error err)⟩
  | delete {name : String} {reply : Option (Except String Unit)} :
    Uploads P c email id b ⟨c, .deletePicture name, reply⟩

structure Proceeds (P : Platform) (c : ℕ) (email : String) (id : ℕ) (b : Backend) (j : Job)
    (b' : Backend) (j' : Job) : Prop where
  media : ∀ name ∈ b.media, name ∈ b'.media
  emails : ∀ id', b'.field .userInfo id' .email = b.field .userInfo id' .email
  uploads : Uploads P c email id b' j'
  late : late j = true → late j' = true ∨ noted j.request = [.stored]
  outcome : (b'.firestore = b.firestore ∧ noted j.request = [] ∧
      ∀ name ∈ b'.media, name ∈ b.media ∨ carries j = some name) ∨
    ∃ name, carries j = some name ∧ carries j' = none ∧ Names P id b' name ∧ name ∈ b'.media ∧
      noted j.request = [.stored]

/-- What the handler of a job leaves on the device `d`. -/
inductive Handled (P : Platform) (c : ℕ) (email : String) (id : ℕ) (b : Backend) (d : Device)
    (j : Job) : Device × List Request → Prop
  | idle {d' : Device} (hshared : d'.sharedUserInfo = d.sharedUserInfo)
    (hcarries : carries j = none) (hlate : late j = false) : Handled P c email id b d j (d', [])
  | stored {d' : Device} {name : String} (hname : IsPicture name)
    (hshared : d'.sharedUserInfo = { d.sharedUserInfo with profilePicURL := P.downloadURL name })
    (hcarries : carries j = none) (hspends : spends j = some name) (hlate : late j = false) :
    Handled P c email id b d j (d', [])
  | next {d' : Device} {r : Request} {name : String}
    (hshared : d'.sharedUserInfo = d.sharedUserInfo) (hcarries : carries j = some name)
    (huploads : Uploads P c email id b (.issue c r)) (hnext : carries (.issue c r) = some name)
    (hspends : spends (.issue c r) = none) (hlate : late j = true → late (.issue c r) = true) :
    Handled P c email id b d j (d', [r])
  | replace {d' : Device} {r : Request} {name old : String}
    (hshared : d'.sharedUserInfo = d.sharedUserInfo) (hcarries : carries j = some name)
    (huploads : Uploads P c email id b (.issue c r)) (hnext : carries (.issue c r) = some name)
    (hspends : spends (.issue c r) = none)
    (hold : oldUUID d.sharedUserInfo.profilePicURL = some old)
    (hurl : j = ⟨c, .pictureURL name, some (.ok (P.downloadURL name))⟩) :
    Handled P c email id b d j (d', [.deletePicture old, r])
  | crash {d' : Device} (hshared : d'.sharedUserInfo = d.sharedUserInfo) (hlate : late j = false) :
    Handled P c email id b d j (d', [])

def Distinct (j j' : Job) : Prop :=
  ∀ name, (carries j = some name → carries j' ≠ some name ∧ spends j' ≠ some name) ∧
    (carries j' = some name → spends j ≠ some name)

variable {P : Platform} {s s' : State} {ℓ : Label} {ls : List Label} {c id : ℕ} {email : String}
  {b b' : Backend} {d : Device} {j j' : Job} {m : ℤ} {name : String}

theorem Distinct.symm (h : Distinct j j') : Distinct j' j :=
  fun name => ⟨fun hj' => ⟨fun hj => ((h name).1 hj).1 hj', (h name).2 hj'⟩,
    fun hj => ((h name).1 hj).2⟩

theorem Names.iff_of_docs (hdocs : b'.firestore = b.firestore) :
    Names P id b' name ↔ Names P id b name := by
  rw [Names, Names, Backend.field, Backend.field, Backend.doc?, Backend.doc?, hdocs]

@[simp] theorem carries_error {r : Request} {err : String} :
    carries ⟨c, r, some (.error err)⟩ = none := by rw [carries]

theorem carries_of_delete (h : j.request = .deletePicture name) : carries j = none := by
  obtain ⟨c, r, reply⟩ := j
  cases h
  rcases reply with _ | _ | _ <;> rfl

/-- **A call that fails** is only alerted. -/
theorem Uploads.fail (h : Uploads P c email id b j) (waiting : j.reply = none) (err : String) :
    Uploads P c email id b (j.answer (.error err)) := by
  cases h with
  | put => exact .failed (fun _ _ => by rw [handler]; exact ⟨rfl, rfl⟩)
  | url => exact .failed (fun _ _ => by rw [handler]; exact ⟨rfl, rfl⟩)
  | query => exact .failed (fun _ _ => by rw [handler]; exact ⟨rfl, rfl⟩)
  | store => exact .failed (fun _ _ => by rw [handler]; exact ⟨rfl, rfl⟩)
  | delete => exact .delete
  | _ => cases waiting

section

variable (hbucket : Text.hasInfix "media%2F".toList P.bucket.toList = false)

include hbucket

theorem IsPicture.oldUUID (h : IsPicture name) :
    ProfileVC.oldUUID (P.downloadURL name) = some name := by
  obtain ⟨uuid, huuid, rfl⟩ := h
  exact oldUUID_url hbucket huuid

theorem IsPicture.carries_query (h : IsPicture name) :
    carries ⟨c, .pictureUserInfo email (P.downloadURL name), none⟩ = some name := by
  rw [← h.oldUUID hbucket]
  rfl

theorem IsPicture.carries_found (h : IsPicture name) {docs : List Doc} :
    carries ⟨c, .pictureUserInfo email (P.downloadURL name), some (.ok docs)⟩ = some name := by
  rw [← h.oldUUID hbucket]
  rfl

theorem IsPicture.carries_store (h : IsPicture name) :
    carries ⟨c, .storePicture id (P.downloadURL name), none⟩ = some name := by
  rw [← h.oldUUID hbucket]
  rfl

theorem IsPicture.spends_stored (h : IsPicture name) :
    spends ⟨c, .storePicture id (P.downloadURL name), some (.ok ())⟩ = some name := by
  rw [← h.oldUUID hbucket]
  rfl

/-- What is carried is still there when all that is carried is kept. -/
theorem Uploads.mono (h : Uploads P c email id b j)
    (hmedia : ∀ name, carries j = some name → name ∈ b.media → name ∈ b'.media) :
    Uploads P c email id b' j := by
  cases h with
  | put hname => exact .put hname
  | hasPut hname hmem => exact .hasPut hname (hmedia _ rfl hmem)
  | url hname hmem => exact .url hname (hmedia _ rfl hmem)
  | hasURL hname hmem => exact .hasURL hname (hmedia _ rfl hmem)
  | query hname hmem => exact .query hname (hmedia _ (hname.carries_query hbucket) hmem)
  | found hname hmem hdoc => exact .found hname (hmedia _ (hname.carries_found hbucket) hmem) hdoc
  | store hname hmem => exact .store hname (hmedia _ (hname.carries_store hbucket) hmem)
  | stored hname => exact .stored hname
  | failed hfailed => exact .failed hfailed
  | delete => exact .delete

/-- **What a call does**: it deletes a picture, or goes on with the one that is carried. -/
theorem effect_uploads (h : Uploads P c email id b j) (waiting : j.reply = none)
    (howner : Owner b email id) : (∃ name, j = ⟨c, .deletePicture name, none⟩) ∨
      Proceeds P c email id b j (j.request.operation.exec P m b).1
        (j.answer (j.request.operation.exec P m b).2) := by
  cases h with
  | put hname =>
    exact .inr ⟨fun _ => List.mem_cons_of_mem _, fun _ => rfl, .hasPut hname List.mem_cons_self,
      (fun h => by cases h),
      .inl ⟨rfl, rfl, fun _ hmem => (List.mem_cons.mp hmem).symm.imp_right (congrArg some ·.symm)⟩⟩
  | @url name hname hmem =>
    have hexec : (Request.pictureURL name).operation.exec P m b =
        (b, .ok (P.downloadURL name)) := by
      show (Operation.downloadURL name).exec P m b = _
      rw [Operation.exec, if_pos (List.contains_iff_mem.mpr hmem)]
    rw [hexec]
    exact .inr ⟨fun _ h => h, fun _ => rfl, .hasURL hname hmem, (fun h => by cases h),
      .inl ⟨rfl, rfl, fun _ => .inl⟩⟩
  | @query name hname hmem =>
    obtain ⟨doc, hdoc, hid⟩ := List.map_eq_singleton_iff.mp howner
    have hexec : (Request.pictureUserInfo email (P.downloadURL name)).operation.exec P m b =
        (b, .ok [doc]) := by rw [← hdoc]; rfl
    rw [hexec]
    exact .inr ⟨fun _ h => h, fun _ => rfl, .found hname hmem hid, fun _ => .inl rfl,
      .inl ⟨rfl, rfl, fun _ => .inl⟩⟩
  | @store name hname hmem =>
    have hnames : Names P id ((Request.storePicture id (P.downloadURL name)).operation.exec P m b).1
        name := by
      have hfield : ((Request.storePicture id (P.downloadURL name)).operation.exec P m b).1.field
          .userInfo id .profilePicURL = some (.string (P.downloadURL name)) :=
        field_setData.trans (by rw [if_pos ⟨rfl, rfl⟩]; rfl)
      rw [Names, hfield]
      rfl
    exact .inr ⟨fun _ h => h, fun _ => field_setData_of_absent rfl, .stored hname,
      fun _ => .inr rfl, .inr ⟨name, hname.carries_store hbucket, rfl, hnames, hmem, rfl⟩⟩
  | @delete name reply =>
    obtain rfl : reply = none := waiting
    exact .inl ⟨name, rfl⟩
  | _ => cases waiting

omit hbucket in
/-- When the URL of a pick arrives, the picture that the singleton names is to be deleted. -/
theorem pictureURLReply_old {imgURL old : String} (live : d.crashed = false)
    (hold : ProfileVC.oldUUID d.sharedUserInfo.profilePicURL = some old) :
    pictureURLReply (.ok imgURL) d =
      (d, [.deletePicture old, .pictureUserInfo d.sharedUserInfo.email imgURL]) := by
  have hurl : d.sharedUserInfo.profilePicURL ≠ "" := by
    intro hurl
    rw [hurl] at hold
    cases hold
  have hdelete : deleteOldPicture d = (d, [.deletePicture old]) := by
    rw [deleteOldPicture, if_pos hurl, hold]
    rfl
  rw [pictureURLReply, andThen_of_live (by rw [hdelete]; exact live), hdelete]
  rfl

/-- **What a handler does**: it goes on with the picture that its job carried, and may delete
the old one. -/
theorem deliver_uploads {a : Except String j.request.Answer} (h : Uploads P c email id b j)
    (answered : j.reply = some a) (live : d.crashed = false)
    (hemail : d.sharedUserInfo.email = email) :
    Handled P c email id b d j (resume P j.request m a d) := by
  cases h with
  | put | url | query | store => cases answered
  | hasPut hname hmem =>
    cases answered
    rw [resume, handler, putPictureReply, orAlert_ok]
    exact .next rfl rfl (.url hname hmem) rfl rfl nofun
  | @hasURL name hname hmem =>
    cases answered
    subst hemail
    show Handled P c _ id b d _ (pictureURLReply (.ok (P.downloadURL name)) d)
    cases hold : ProfileVC.oldUUID d.sharedUserInfo.profilePicURL with
    | some old =>
      rw [pictureURLReply_old live hold]
      exact .replace rfl rfl (.query hname hmem) (hname.carries_query hbucket) rfl hold rfl
    | none =>
      show Handled P c _ id b d _ (andThen deleteOldPicture _ d)
      by_cases hurl : d.sharedUserInfo.profilePicURL = ""
      · have hskip : deleteOldPicture d = (d, []) := by
          rw [deleteOldPicture, if_neg (not_not.mpr hurl)]
          rfl
        rw [andThen_of_live (by rw [hskip]; exact live), hskip]
        exact .next rfl rfl (.query hname hmem) (hname.carries_query hbucket) rfl (fun _ => rfl)
      · have hcrash : deleteOldPicture d = crash d := by rw [deleteOldPicture, if_pos hurl, hold]
        rw [andThen, hcrash]
        exact .crash rfl rfl
  | @found name doc hname hmem hdoc =>
    cases answered
    subst hdoc
    rw [resume, handler, pictureUserInfoReply, orAlert_ok]
    show Handled P c _ doc.id b d _ (andThen (Action.issue (.storePicture doc.id _)) skip d)
    rw [andThen_issue _ live]
    exact .next rfl (hname.carries_found hbucket) (.store hname hmem)
      (hname.carries_store hbucket) rfl (fun _ => rfl)
  | stored hname =>
    cases answered
    rw [resume, handler, storePictureReply, orAlert_ok]
    exact .stored hname rfl rfl (hname.spends_stored hbucket) rfl
  | failed hfailed =>
    cases answered
    obtain ⟨hnone, hshared⟩ := hfailed { d with currentUser := authState _ _ d.currentUser } m
    rw [resume, ← Prod.mk.eta (p := handler _ _ _ _ _), hnone]
    exact .idle hshared carries_error (by cases ‹Request› <;> rfl)
  | @delete name reply =>
    change Except String Unit at a
    obtain rfl : reply = some a := answered
    rw [resume, handler, deletePictureReply]
    cases a with
    | ok x => exact .idle rfl rfl rfl
    | error err => exact .idle rfl rfl rfl

end

/-! ### All picks together -/

theorem unused_iff : unused P c id s name = true ↔
    oldUUID (s.locals c).sharedUserInfo.profilePicURL ≠ some name ∧ ¬ Names P id s.store name ∧
      ∀ j ∈ s.jobs, carries j ≠ some name ∧ spends j ≠ some name := by
  simp only [unused, Bool.and_eq_true, List.all_eq_true, decide_eq_true_eq, Bool.not_eq_true',
    decide_eq_false_iff_not, and_assoc]

theorem pick_of_guard {c' : ℕ} {e : Event} (guard : picking P c id s (.event c' e) = true) :
    ∃ uuid, e = .storeProfilePic uuid ∧ c' = c ∧ IsPicture (uuid ++ ".jpg") ∧
      unused P c id s (uuid ++ ".jpg") = true := by
  cases e with
  | storeProfilePic uuid =>
    simp only [picking, Bool.and_eq_true, decide_eq_true_eq, List.all_eq_true] at guard
    exact ⟨uuid, rfl, guard.1.1, ⟨uuid, guard.1.2, rfl⟩, guard.2⟩
  | _ => cases guard

/-- What holds of the picks of the client `c`, whose document is `id`. -/
structure Uploading (P : Platform) (c : ℕ) (email : String) (id : ℕ) (s : State) : Prop where
  owner : Owner s.store email id
  shared : (s.locals c).sharedUserInfo.email = email
  jobs : ∀ j ∈ s.jobs, Uploads P c email id s.store j
  distinct : s.jobs.Pairwise Distinct
  kept : ∀ j ∈ s.jobs, ∀ name, carries j = some name →
    oldUUID (s.locals c).sharedUserInfo.profilePicURL ≠ some name

theorem Uploads.client (h : Uploads P c email id b j) : j.client = c := by
  cases h <;> rfl

theorem answer_carries {a : Except String j.request.Answer} (waiting : j.reply = none) :
    (∀ name, carries (j.answer a) = some name → carries j = some name) ∧
      ∀ name, spends (j.answer a) = some name → carries j = some name ∨ spends j = some name := by
  have hcarries : carries j = picture j.request := by rw [carries, waiting]
  refine ⟨fun name h => ?_, fun name h => ?_⟩
  · rw [hcarries]
    cases a with
    | error err => cases h
    | ok x =>
      rw [carries, Job.answer_reply] at h
      dsimp only [Job.answer_request] at h
      split at h
      · cases h
      · exact h
  · rw [hcarries]
    rw [spends] at h
    split at h
    · next hname =>
      refine .inr ?_
      rw [spends]
      split
      · next hname' => exact (Request.deletePicture.inj (hname'.symm.trans hname)) ▸ h
      · next hname' => cases hname'.symm.trans hname
      · next hnot _ => exact absurd hname (hnot _)
    · next hname =>
      rw [show j.request = _ from hname]
      cases a with
      | error err => cases h
      | ok x => exact .inl h
    · cases h

theorem Distinct.answer {a : Except String j.request.Answer} (waiting : j.reply = none)
    (h : Distinct j j') : Distinct (j.answer a) j' := by
  obtain ⟨hcarries, hspends⟩ := answer_carries (a := a) waiting
  refine fun name => ⟨fun hj => (h name).1 (hcarries name hj), fun hj' hj => ?_⟩
  rcases hspends name hj with hj | hj
  · exact ((h name).1 hj).1 hj'
  · exact (h name).2 hj' hj

theorem Distinct.inherit {i : Job} (h : Distinct j i) (hcarries : carries j' = carries j)
    (hspends : spends j' = none) : Distinct i j' := by
  intro name
  rw [hcarries, hspends]
  exact ⟨fun hi => ⟨fun hj => ((h name).1 hj).1 hi, nofun⟩, fun hj => ((h name).1 hj).2⟩

section

variable (hbucket : Text.hasInfix "media%2F".toList P.bucket.toList = false)

include hbucket

theorem Uploading.step_jobs (h : Uploading P c email id s) (guard : picking P c id s ℓ = true)
    (move : Step (app P) s ℓ s') :
    (∀ j ∈ s'.jobs, Uploads P c email id s'.store j) ∧ s'.jobs.Pairwise Distinct := by
  refine move.jobs_apart (φ := Uploads P c email id) Distinct.symm Distinct.answer h.jobs h.distinct
    ?_ ?_ ?_ ?_
  · rintro c' e rfl -
    obtain ⟨uuid, rfl, rfl, hname, hunused⟩ := pick_of_guard guard
    refine .singleton (.put hname) (fun i hi name => ?_)
    refine ⟨fun hcarries => ⟨?_, nofun⟩, ?_⟩
    · rintro ⟨⟩
      exact ((unused_iff.mp hunused).2.2 i hi).1 hcarries
    · rintro ⟨⟩
      exact ((unused_iff.mp hunused).2.2 i hi).2
  · rintro i j m - hj waiting
    rcases effect_uploads hbucket (m := m) (h.jobs j hj) waiting h.owner with
      ⟨name, rfl⟩ | hproceeds
    · refine ⟨.delete, fun j' hj' hdistinct =>
        (h.jobs j' hj').mono hbucket (fun (name' : String) hname' hmem => ?_)⟩
      rw [app_exec, exec_deletePicture]
      refine List.mem_filter.mpr ⟨hmem, decide_eq_true ?_⟩
      rintro rfl
      exact (hdistinct _).2 hname' rfl
    · exact ⟨hproceeds.uploads, fun j' hj' _ =>
        (h.jobs j' hj').mono hbucket (fun name _ => hproceeds.media name)⟩
  · rintro i j err - hj waiting
    exact (h.jobs j hj).fail waiting err
  · rintro js₁ j js₂ m a - split answered live hothers
    have hj := mem_of_split split
    obtain rfl := (h.jobs j hj).client
    have hhandled := deliver_uploads hbucket (m := m) (h.jobs j hj) answered
      (by simpa using live) h.shared
    rw [app_resume]
    generalize resume P j.request m a (s.locals j.client) = p at hhandled ⊢
    cases hhandled with
    | idle | stored | crash => exact .nil
    | next _ hcarries huploads hnext hspends _ =>
      exact .singleton huploads
        (fun i hi => (hothers i hi).inherit (hnext.trans hcarries.symm) hspends)
    | @replace d' r name old _ hcarries huploads hnext hspends hold _ =>
      -- the old picture is carried by no job, neither this one nor another
      have hdelete : ∀ i ∈ s.jobs, ∀ i' : Job, carries i' = carries i →
          Distinct i' (.issue j.client (.deletePicture old)) := by
        intro i hi i' hi' name'
        refine ⟨fun hcarries' => ⟨nofun, ?_⟩, nofun⟩
        rintro ⟨⟩
        exact h.kept i hi _ (hi'.symm.trans hcarries') hold
      have hown := hdelete j hj (.issue j.client r) (hnext.trans hcarries.symm)
      refine ⟨?_, List.pairwise_pair.mpr hown.symm, ?_⟩
      · rintro r' hr'
        rcases List.mem_pair.mp hr' with rfl | rfl
        · exact .delete
        · exact huploads
      · rintro i hi r' hr'
        rcases List.mem_pair.mp hr' with rfl | rfl
        · exact hdelete i ((rest_sublist split).subset hi) i rfl
        · exact (hothers i hi).inherit (hnext.trans hcarries.symm) hspends

/-- **A move of the picks.** -/
theorem Uploading.step (h : Uploading P c email id s) (guard : picking P c id s ℓ = true)
    (move : Step (app P) s ℓ s') : Uploading P c email id s' := by
  obtain ⟨hjobs, hdistinct⟩ := h.step_jobs hbucket guard move
  cases move with
  | event c' e live =>
    obtain ⟨uuid, rfl, rfl, -, hunused⟩ := pick_of_guard guard
    have hlocals :
        (s.proceed c' s.jobs ((app P).start (.storeProfilePic uuid) (s.locals c'))).locals c' =
      s.locals c' := Function.update_self ..
    refine ⟨h.owner, by rw [hlocals]; exact h.shared, hjobs, hdistinct, ?_⟩
    rw [hlocals]
    intro j hj name hcarries
    rcases List.mem_append.mp hj with hj | hj
    · exact h.kept j hj name hcarries
    · obtain rfl := List.mem_singleton.mp hj
      cases hcarries
      exact (unused_iff.mp hunused).1
  | @effect js₁ js₂ j m split waiting =>
    have hj := mem_of_split split
    refine ⟨?_, h.shared, hjobs, hdistinct, ?_⟩
    · rcases effect_uploads hbucket (m := m) (h.jobs j hj) waiting h.owner with
        ⟨name, rfl⟩ | hproceeds
      · refine h.owner.frame (fun id' => ?_)
        rw [State.settle_store, app_exec, exec_deletePicture]
        rfl
      · exact h.owner.frame hproceeds.emails
    · intro j' hj' name hcarries
      rcases mem_of_settled split hj' with rfl | hj'
      · exact h.kept j hj name ((answer_carries waiting).1 name hcarries)
      · exact h.kept j' hj' name hcarries
  | @fail js₁ js₂ j err split waiting =>
    have hj := mem_of_split split
    refine ⟨h.owner, h.shared, hjobs, hdistinct, ?_⟩
    intro j' hj' name hcarries
    rcases mem_of_settled split hj' with rfl | hj'
    · exact h.kept j hj name ((answer_carries waiting).1 name hcarries)
    · exact h.kept j' hj' name hcarries
  | @deliver js₁ js₂ j m a split answered live =>
    have hj := mem_of_split split
    obtain rfl := (h.jobs j hj).client
    have hhandled := deliver_uploads hbucket (m := m) (h.jobs j hj) answered
      (by simpa using live) h.shared
    have hrest := (rest_sublist split).subset
    rw [app_resume] at hjobs hdistinct ⊢
    generalize resume P j.request m a (s.locals j.client) = p at hhandled hjobs hdistinct ⊢
    have hlocals : (s.proceed j.client (js₁ ++ js₂) p).locals j.client = p.1 :=
      Function.update_self ..
    -- all but the last handler of a pick leave the singleton as it is
    have hkept : p.1.sharedUserInfo = (s.locals j.client).sharedUserInfo →
        (∀ r ∈ p.2, ∀ name, carries (.issue j.client r) = some name → carries j = some name) →
        ∀ j' ∈ (js₁ ++ js₂) ++ p.2.map (Job.issue j.client), ∀ name, carries j' = some name →
          oldUUID p.1.sharedUserInfo.profilePicURL ≠ some name := by
      intro hshared hnew j' hj' name hcarries
      rw [hshared]
      rcases List.mem_append.mp hj' with hj' | hj'
      · exact h.kept j' (hrest hj') name hcarries
      · obtain ⟨r, hr, rfl⟩ := List.mem_map.mp hj'
        exact h.kept j hj name (hnew r hr name hcarries)
    refine ⟨h.owner, ?_, hjobs, hdistinct, ?_⟩
    · rw [hlocals]
      cases hhandled with
      | stored _ hshared => rw [hshared]; exact h.shared
      | idle hshared | next hshared | replace hshared | crash hshared =>
        rw [hshared]
        exact h.shared
    · rw [hlocals]
      cases hhandled with
      | idle hshared _ _ | crash hshared _ =>
        exact hkept hshared (fun _ hr => absurd hr List.not_mem_nil)
      | @stored d' name hname hshared _ hspends _ =>
        rw [hshared, hname.oldUUID hbucket]
        have hothers := h.distinct
        rw [split, List.pairwise_middle Distinct.symm] at hothers
        intro j' hj' name' hcarries hname'
        rw [State.proceed_jobs, List.map_nil, List.append_nil] at hj'
        exact ((List.pairwise_cons.mp hothers).1 j' hj' name').2 hcarries (hspends.trans hname')
      | @next d' r name hshared hcarries huploads hnext hspends _ =>
        refine hkept hshared (fun r' hr' name' hcarries' => ?_)
        rw [List.mem_singleton.mp hr', hnext] at hcarries'
        exact hcarries.trans hcarries'
      | @replace d' r name old hshared hcarries huploads hnext hspends hold _ =>
        refine hkept hshared (fun r' hr' name' hcarries' => ?_)
        rcases List.mem_pair.mp hr' with rfl | rfl
        · cases hcarries'
        · exact hcarries.trans (hnext.symm.trans hcarries')

end

end SpotiFriend

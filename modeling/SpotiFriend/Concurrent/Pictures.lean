import SpotiFriend.Concurrent.Losses
import SpotiFriend.Concurrent.Writes

/-!
# Whose pictures are deleted

An object in Storage has a name and no owner.  A device deletes the one whose name it cuts out
of the URL in its singleton, so what matters is how URLs come to be there: from an upload of the
device, from a document with an email that it had, or from before the run.

Main results, for all that the app can do, with any calls failing and in any order:

* `picture_traces`: a move hands on where the URLs come from;
* `picture_untouched`: an object is there until a device deletes it whose own picture it was.
-/

namespace SpotiFriend

open Async SpotiFriend.Action

def Picked (P : Platform) (h : History) (c : ℕ) (url : String) : Prop :=
  ∃ uuid, Happened h c (.storeProfilePic uuid) ∧ url = P.downloadURL (uuid ++ ".jpg")

/-- The URL was in a document of `userInfo` with an email that the device had. -/
def ReadAsOwn (h : History) (c : ℕ) (url : String) : Prop :=
  ∃ email f, Held h c email ∧ WasStored h .userInfo f ∧ f .email = some (.string email) ∧
    f .profilePicURL = some (.string url)

/-- The URL is the device's, which had `before c` at the start. -/
def OwnPicture (P : Platform) (before : ℕ → String) (h : History) (c : ℕ) (url : String) : Prop :=
  url = before c ∨ Picked P h c url ∨ ReadAsOwn h c url

def PictureCause (P : Platform) (before : ℕ → String) (h : History) (c : ℕ) : Request → Prop
  | .getUserInfo email => Held h c email
  | .putPicture name => ∃ uuid, Happened h c (.storeProfilePic uuid) ∧ name = uuid ++ ".jpg"
  | .pictureURL name => ∃ uuid, Happened h c (.storeProfilePic uuid) ∧ name = uuid ++ ".jpg"
  | .pictureUserInfo _ imgURL => Picked P h c imgURL
  | .storePicture _ imgURL => Picked P h c imgURL
  | .deletePicture name => ∃ url, OwnPicture P before h c url ∧ ProfileVC.oldUUID url = some name
  | _ => True

def NamesObject (P : Platform) : (r : Request) → Except String r.Answer → Prop
  | .pictureURL name, .ok url => url = P.downloadURL name
  | _, _ => True

structure UploadTraced (P : Platform) (before : ℕ → String) (h : History) (j : Job) : Prop where
  cause : PictureCause P before h j.client j.request
  found : ∀ a, j.reply = some a → Found h j.request.operation a
  names : ∀ a, j.reply = some a → NamesObject P j.request a

def Operation.deletes : Operation → Option String
  | .deleteObject name => some name
  | _ => none

variable {P : Platform} {before : ℕ → String} {s s' : State} {ls : List Label} {h h' : History}
  {c : ℕ} {d : Device} {m : ℤ} {r : Request} {b : Backend} {url name : String}

/-! ### The past only grows -/

theorem Picked.mono (hsub : h ⊆ h') (hurl : Picked P h c url) : Picked P h' c url := by
  obtain ⟨uuid, hpicked, rfl⟩ := hurl
  exact ⟨uuid, hpicked.mono hsub, rfl⟩

theorem ReadAsOwn.mono (hsub : h ⊆ h') (hurl : ReadAsOwn h c url) : ReadAsOwn h' c url := by
  obtain ⟨email, f, hheld, hf, hfields⟩ := hurl
  exact ⟨email, f, hheld.mono hsub, hf.mono hsub, hfields⟩

theorem OwnPicture.mono (hsub : h ⊆ h') (hurl : OwnPicture P before h c url) :
    OwnPicture P before h' c url :=
  hurl.imp id (fun hurl => hurl.imp (Picked.mono hsub) (ReadAsOwn.mono hsub))

theorem PictureCause.mono (hsub : h ⊆ h') (hr : PictureCause P before h c r) :
    PictureCause P before h' c r := by
  cases r with
  | getUserInfo email => exact Held.mono hsub hr
  | putPicture name | pictureURL name =>
    obtain ⟨uuid, hpicked, rfl⟩ := hr
    exact ⟨uuid, hpicked.mono hsub, rfl⟩
  | pictureUserInfo email imgURL | storePicture id imgURL => exact Picked.mono hsub hr
  | deletePicture name =>
    obtain ⟨url, hurl, hname⟩ := hr
    exact ⟨url, hurl.mono hsub, hname⟩
  | _ => trivial

theorem UploadTraced.mono {j : Job} (hsub : h ⊆ h') (hj : UploadTraced P before h j) :
    UploadTraced P before h' j :=
  ⟨hj.cause.mono hsub, fun a ha => (hj.found a ha).mono hsub, hj.names⟩

/-! ### Events, calls and replies -/

/-- An event looks for the user's document by the user's email, and names a picture by what it
has drawn. -/
theorem start_pictureCause {e : Event} (live : d.crashed = false) (he : Happened h c e)
    (hd : ∀ u, Holds d u → Held h c u) : ∀ r ∈ (start e d).2, PictureCause P before h c r := by
  intro r hr
  have hbegins := start_begins e live r hr
  have hopens := start_opens e live r hr
  cases r with
  | getUserInfo email =>
    cases e with
    | viewWillAppear =>
      obtain ⟨user, huser, hr⟩ := hbegins
      cases hr
      exact hd _ (Or.inr ⟨user, huser, rfl⟩)
    | updateClicked vc selectedEditID => cases selectedEditID <;> simp_all [Begins]
    | _ => simp_all [Begins]
  | putPicture name =>
    cases e with
    | storeProfilePic uuid =>
      cases hbegins
      exact ⟨uuid, he, rfl⟩
    | updateClicked vc selectedEditID => cases selectedEditID <;> simp_all [Begins]
    | _ => simp_all [Begins]
  | pictureURL name => cases hopens
  | pictureUserInfo email imgURL => cases hopens
  | storePicture id imgURL => cases hopens
  | deletePicture name => cases hopens
  | _ => trivial

theorem namesObject_exec : NamesObject P r (r.operation.exec P m b).2 := by
  cases r with
  | pictureURL name =>
    simp only [Operation.exec]
    split
    · exact rfl
    · trivial
  | _ => trivial

theorem namesObject_error {err : String} : NamesObject P r (.error err) := by
  cases r <;> trivial

/-- A handler hands the name and the URL on, and deletes by the URL of the singleton. -/
theorem resume_pictureCause {reply : Except String r.Answer}
    (hj : UploadTraced P before h ⟨c, r, some reply⟩)
    (hd : d.sharedUserInfo.profilePicURL = "" ∨
      OwnPicture P before h c d.sharedUserInfo.profilePicURL) :
    ∀ r' ∈ (resume P r m reply d).2, PictureCause P before h c r' := by
  intro r' hr'
  have hleads := resume_leads P r m reply d r' hr'
  have hcause := hj.cause
  cases r with
  | putPicture name =>
    obtain rfl : r' = .pictureURL name := hleads
    exact hcause
  | pictureURL name =>
    obtain ⟨imgURL, rfl, rfl | ⟨old, rfl, hurl, hold⟩⟩ := pictureURL_requests hr'
    · obtain ⟨uuid, hpicked, rfl⟩ := hcause
      exact ⟨uuid, hpicked, hj.names _ rfl⟩
    · exact ⟨_, hd.resolve_left hurl, hold⟩
  | pictureUserInfo email imgURL =>
    obtain ⟨id, rfl⟩ := hleads
    exact hcause
  | _ => cases r' <;> simp_all [Leads, PictureCause]

theorem load_profilePicURL (u : UserSingleton) (f : Fields) :
    (u.load f).profilePicURL = u.profilePicURL ∨
      f .profilePicURL = some (.string (u.load f).profilePicURL) := by
  rw [UserSingleton.load]
  split
  · cases hurl : getString f .profilePicURL with
    | none => exact Or.inl rfl
    | some url =>
      obtain ⟨v, hv, hstring⟩ := Option.bind_eq_some_iff.mp hurl
      obtain rfl := Value.asString_eq_some.mp hstring
      exact Or.inr hv
  · exact Or.inl rfl

/-- **The singleton's URL** after a reply is as before, a picked one or the user's. -/
theorem shares_ownPicture {reply : Except String r.Answer} {u : UserSingleton}
    (hj : UploadTraced P before h ⟨c, r, some reply⟩)
    (hu : u.profilePicURL = "" ∨ OwnPicture P before h c u.profilePicURL) :
    (shares d r reply u).profilePicURL = "" ∨
      OwnPicture P before h c (shares d r reply u).profilePicURL := by
  cases r with
  | getUserInfo email =>
    cases reply with
    | error err => exact hu
    | ok docs =>
      refine List.foldlRecOn docs (fun (u : UserSingleton) doc => u.load doc.data)
        (motive := fun u : UserSingleton =>
          u.profilePicURL = "" ∨ OwnPicture P before h c u.profilePicURL)
        hu (fun u hu doc hdoc => ?_)
      rcases load_profilePicURL u doc.data with hsame | hurl
      · rw [hsame]
        exact hu
      · obtain ⟨hstored, hholds⟩ := hj.found _ rfl doc hdoc
        exact Or.inr (Or.inr (Or.inr ⟨email, doc.data, hj.cause, hstored,
          Query.holds_userInfo.mp hholds, hurl⟩))
  | storePicture id imgURL =>
    cases reply with
    | error err => exact hu
    | ok _ => exact Or.inr (Or.inr (Or.inl hj.cause))
  | storeFound | storeCreated | updateEmail | storeUsername | storeRadius => cases reply <;> exact hu
  | _ => exact hu

theorem media_of_deletes {o : Operation} (hname : name ∈ b.media) (hne : o.deletes ≠ some name) :
    name ∈ (o.exec P m b).1.media := by
  cases o with
  | deleteObject name' =>
    rw [Operation.exec]
    split
    · refine List.mem_filter.mpr ⟨hname, ?_⟩
      exact decide_eq_true (fun heq => hne (congrArg some heq.symm))
    · exact hname
  | putData name' => exact List.mem_cons_of_mem _ hname
  | _ =>
    simp only [Operation.exec]
    repeat' split
    all_goals exact hname

/-! ### Runs -/

/-- **The moves** hand on where the URLs come from. -/
theorem picture_traces : Traces (app P) (fun h c d => d.sharedUserInfo.profilePicURL = "" ∨
    OwnPicture P before h c d.sharedUserInfo.profilePicURL) (UploadTraced P before) where
  grows hsub hd := hd.imp id (OwnPicture.mono hsub)
  growsJob hsub hj := hj.mono hsub
  start := by
    intro h s c e hmade live hd
    have hlive : (s.locals c).crashed = false := by simpa using live
    refine ⟨?_, fun r hr => ⟨?_, fun a ha => (by cases ha), fun a ha => by cases ha⟩⟩
    · rw [app_start, start_shared e hlive]
      split
      · exact Or.inl rfl
      · exact hd
    · exact start_pictureCause hlive ⟨s, hmade⟩ (fun u hu => ⟨_, hmade, hu⟩) r hr
  exec := by
    intro h s i m c r hmade _ hj
    refine ⟨hj.cause, fun a ha => ?_, fun a ha => ?_⟩
    · obtain rfl := Option.some.inj ha
      exact found_exec (fun coll id f hf => ⟨_, hmade, id, hf⟩)
    · obtain rfl := Option.some.inj ha
      exact namesObject_exec
  fail := by
    intro h c r err hj
    refine ⟨hj.cause, fun a ha => ?_, fun a ha => ?_⟩
    · obtain rfl := Option.some.inj ha
      exact found_error
    · obtain rfl := Option.some.inj ha
      exact namesObject_error
  resume := by
    intro h s i m c r reply hmade live hd hj
    refine ⟨?_, fun r' hr' => ⟨?_, fun a ha => (by cases ha), fun a ha => by cases ha⟩⟩
    · rw [app_resume, resume_shared P r m reply (by simpa using live)]
      exact shares_ownPicture hj hd
    · exact resume_pictureCause hj hd r' hr'

/-- **A picture is deleted by a device whose own it was.**  In every run that starts with nothing
on its way, an object of Storage is there in the end, or a device has deleted it by a URL which
was in its singleton from the start, or is that of a picture it has picked itself, or was in a
document of `userInfo` with an email that the device had. -/
theorem picture_untouched (quiet : s.jobs = []) (there : name ∈ s.store.media)
    (hrun : Run (app P) (fun _ _ => True) s ls s') : name ∈ s'.store.media ∨
    ∃ c url, OwnPicture P (fun c => (s.locals c).sharedUserInfo.profilePicURL)
        (collect (app P) made s ls) c url ∧ ProfileVC.oldUUID url = some name ∧
      ChangedBy Operation.deletes (collect (app P) made s ls) c name := by
  rcases picture_traces.untouched ⟨fun c => Or.inr (Or.inl rfl), by
    rw [quiet]; exact List.forall_mem_nil _⟩ (I := fun b => name ∈ b.media) there hrun with
    hsame | ⟨h, t, i, m, c, r, hsub, hpast, hmade, hjob, hj, htaken⟩
  · exact Or.inl hsame
  · right
    have hdeletes : r.operation.deletes = some name := by
      by_contra hne
      exact htaken (media_of_deletes (hpast _ hmade) hne)
    obtain ⟨url, hurl, hname⟩ : ∃ url, OwnPicture P (fun c =>
        (s.locals c).sharedUserInfo.profilePicURL) h c url ∧ ProfileVC.oldUUID url = some name := by
      have hcause := hj.cause
      cases r with
      | deletePicture name' =>
        obtain rfl := Option.some.inj hdeletes
        exact hcause
      | _ => cases hdeletes
    exact ⟨c, url, hurl.mono hsub, hname, t, i, m, r, hsub hmade, hjob, hdeletes⟩

/-- The old picture goes when its user stores another one. -/
theorem onePick_own : ∃ s', Run (app .sample) (fun _ _ => True) withPicture onePick s' ∧
    ∃ c url, OwnPicture .sample (fun c => (withPicture.locals c).sharedUserInfo.profilePicURL)
      (collect (app .sample) made withPicture onePick) c url ∧
      ProfileVC.oldUUID url = some ("0-A" ++ ".jpg") := by
  obtain ⟨s', hrun, hend⟩ := Run.exists_of_run (P := app .sample) (G := fun _ _ => true)
    (s := withPicture) (l := onePick) (Q := fun s' => !s'.store.media.contains ("0-A" ++ ".jpg"))
    (by decide +kernel)
  have hfree := hrun.mono (H := fun _ _ => True) (fun _ _ _ => trivial)
  refine ⟨s', hfree, ?_⟩
  rcases picture_untouched rfl (show "0-A" ++ ".jpg" ∈ withPicture.store.media from
    List.mem_singleton_self _) hfree with hthere | ⟨c, url, hurl, hname, -⟩
  · rw [List.contains_iff_mem.mpr hthere] at hend
    cases hend
  · exact ⟨c, url, hurl, hname⟩

end SpotiFriend

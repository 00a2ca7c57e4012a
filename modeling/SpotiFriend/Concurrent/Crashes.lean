import SpotiFriend.Async.Run
import SpotiFriend.Concurrent.Deletion
import SpotiFriend.Concurrent.Links
import SpotiFriend.Spec.Crashes
import SpotiFriend.Spec.Pictures
import SpotiFriend.Spec.Shapes

/-!
# When the app crashes

A forced unwrapping, cast or index takes what documents hold as it is, and it takes the user
for granted at a moment when a log-out may have come between.  Here is the whole list of moves
at which one of these fails, and what it takes that none does.  The counters have no bound here,
and what the frameworks refuse by themselves is not looked at.

Main results, for all that the app can do, with any calls failing and in any order:

* `crashed_iff`: a device has crashed when and only when one of those moves was made;
* `never_crashes`: no device ever crashes when each click that needs a user finds one, a
  password is acknowledged to a user who is still signed in, each link that is added is a URL,
  and each picture that is picked gets a UUID.
-/

namespace SpotiFriend

open Async Text

/-- The moves at which the device of the client `c` crashes. -/
def fatalities (P : Platform) (c : ℕ) (s : State) : Label → List Label
  | .event c' e => if c' = c ∧ fatalEvent (s.locals c) e = true then [.event c' e] else []
  | .deliver i m => match s.jobs[i]? with
    | some ⟨c', r, some a⟩ =>
      if c' = c ∧ fatalReply P (s.locals c) r a = true then [.deliver i m] else []
    | _ => []
  | _ => []

variable {P : Platform} {s s' : State} {ℓ : Label} {ls : List Label} {c : ℕ}

/-- **One move** crashes a device, or leaves it as crashed as it was. -/
theorem step_crashed (move : Step (app P) s ℓ s') : (s'.locals c).crashed = true ↔
    (s.locals c).crashed = true ∨ fatalities P c s ℓ ≠ [] := by
  -- what a piece of code does on the device of the client `c'`
  have hproceed : ∀ (c' : ℕ) (a : Action) (x : Bool) (ℓ : Label),
      (s.locals c').crashed = false → (a (s.locals c')).1.crashed = x →
      ((Function.update s.locals c' (a (s.locals c')).1 c).crashed = true ↔
        (s.locals c).crashed = true ∨ (if c' = c ∧ x = true then [ℓ] else []) ≠ []) := by
    intro c' a x ℓ live ha
    by_cases hc : c = c'
    · subst hc
      rw [Function.update_self, ha, live]
      cases x with
      | true => simp
      | false => simp
    · rw [Function.update_of_ne hc, if_neg (fun h => hc h.1.symm)]
      simp
  cases move with
  | event c' e live =>
    have live : (s.locals c').crashed = false := by simpa using live
    rw [State.proceed_locals, hproceed c' (start e) _ (.event c' e) live (start_crashed e live),
      fatalities]
    by_cases hc : c' = c
    · rw [hc]
    · rw [if_neg (fun h => hc h.1), if_neg (fun h => hc h.1)]
  | effect j m split waiting => simp [fatalities]
  | fail j err split waiting => simp [fatalities]
  | @deliver js₁ js₂ j m a split answered live =>
    have hget := getElem?_split split
    rw [Job.eq_of_reply answered] at hget
    have live : (s.locals j.client).crashed = false := by simpa using live
    rw [State.proceed_locals, hproceed j.client (resume P j.request m a) _ (.deliver js₁.length m)
      live (resume_crashed P j.request m a live), fatalities, hget]
    by_cases hc : j.client = c
    · rw [hc]
    · rw [if_neg (fun h => hc h.1)]
      simp only [if_neg (fun h : j.client = c ∧ fatalReply P (s.locals c) j.request a = true =>
        hc h.1)]

/-- **The crashes of a run.**  A device has crashed at the end exactly when it had crashed
before, or a forced unwrapping, cast or index failed at one of the moves. -/
theorem crashed_iff (hrun : Run (app P) (fun _ _ => True) s ls s') :
    (s'.locals c).crashed = true ↔
      (s.locals c).crashed = true ∨ collect (app P) (fatalities P c) s ls ≠ [] := by
  have hend := hrun.history (w := fatalities P c)
    (I := fun h t => (t.locals c).crashed = true ↔ (s.locals c).crashed = true ∨ h ≠ [])
    (fun h t ℓ t' ih _ move => by
      rw [step_crashed move, ih, or_assoc, ne_eq, ne_eq, ne_eq, ← not_and_or,
        List.append_eq_nil_iff]) (h := []) (by simp)
  rw [List.nil_append] at hend
  exact hend

def changesPassword (early : Bool) : List Label :=
  [.event 0 (.editText 0 .desiredTextField "hidden"), .event 0 (.updateClicked 0 .password),
      .effect 0 0] ++
    if early then [.event 0 (.logOutClicked true), .deliver 0 0]
    else [.deliver 0 0, .event 0 (.logOutClicked true)]

/-- The acknowledgement finds nobody signed in. -/
theorem crashed_afterLogOut : ∃ s',
    Run (app .sample) (fun _ _ => True) oldPlaylist (changesPassword true) s' ∧
    (s'.locals 0).crashed = true := by
  obtain ⟨s', hrun, hend⟩ := Run.exists_of_run (P := app .sample) (G := fun _ _ => true)
    (s := oldPlaylist) (l := changesPassword true)
    (Q := fun _ => collect (app .sample) (fatalities .sample 0) oldPlaylist (changesPassword true) ≠ [])
    (by decide +kernel)
  have hfree := hrun.mono (H := fun _ _ => True) (fun _ _ _ => trivial)
  exact ⟨s', hfree, (crashed_iff hfree).mpr (Or.inr (of_decide_eq_true hend))⟩

/-! ### What is stored and shown -/

/-- A picture that can be shown, and whose name can be cut out of the URL. -/
def soundPicture (P : Platform) (url : String) : Bool :=
  canShow P url && (ProfileVC.oldUUID url).isSome

/-- The links and the pictures that documents hold. -/
def soundDocs (P : Platform) : Shape
  | .userInfo, f => ∀ url, getString f .profilePicURL = some url → soundPicture P url = true
  | _, f => canOpen (MapVC.linkOf f) = true

def Drawn (name : String) : Prop :=
  ∃ uuid : String, name = uuid ++ ".jpg" ∧ uuid.toList.all ProfileVC.isUUIDChar = true

/-- What is relied on of the storage service: no character of a bucket's name or of a token has
to be escaped in a URL, and what was uploaded is an image. -/
structure Downloads (P : Platform) : Prop where
  bucket : ∀ c ∈ P.bucket.toList, Uri.isUnreserved c = true
  token : ∀ name, Drawn name → ∀ c ∈ (P.token name).toList, Uri.isUnreserved c = true
  image : ∀ name, Drawn name → P.contents (P.downloadURL name) ≠ .noImage

/-- The pictures on their way to a document are sound, and taps ask for playlists. -/
def CarriesSound (P : Platform) : Job → Prop
  | ⟨_, .checkPlaylists coll _, _⟩ => coll ≠ .userInfo
  | ⟨_, .putPicture name, _⟩ => Drawn name
  | ⟨_, .pictureURL name, reply⟩ => Drawn name ∧
    ∀ url, reply = some (.ok url) → soundPicture P url = true
  | ⟨_, .pictureUserInfo _ url, _⟩ => soundPicture P url = true
  | ⟨_, .storePicture _ url, _⟩ => soundPicture P url = true
  | _ => True

def Running (d : Device) : Prop :=
  d.crashed = false ∧ (d.sharedUserInfo.profilePicURL = "" ∨
    (ProfileVC.oldUUID d.sharedUserInfo.profilePicURL).isSome = true)

structure CrashFree (P : Platform) (s : State) : Prop where
  running : ∀ c, Running (s.locals c)
  stored : Stored (soundDocs P) s.store
  shaped : ∀ j ∈ s.jobs, Shaped (soundDocs P) j
  carried : ∀ j ∈ s.jobs, CarriesSound P j

/-- A click finds the user that it needs and a link that is a URL, an upload draws a UUID, and
the user whose password has been changed is still signed in when that is acknowledged. -/
def careful (s : State) : Label → Bool
  | .event c (.addPlaylistClicked vc) => !AddPlaylistVC.accepts (s.locals c) vc ||
    (urlOf ((s.locals c).text vc .linkTextField)).isSome
  | .event _ (.storeProfilePic uuid) => uuid.toList.all ProfileVC.isUUIDChar
  | .event c e => !fatalEvent (s.locals c) e
  | .deliver i _ => match s.jobs[i]? with
    | some ⟨c, .updatePassword _ _ _, some (.ok _)⟩ => (s.locals c).currentUser.isSome
    | _ => true
  | _ => true

/-- What is uploaded can be shown, and its name can be cut out of its URL. -/
theorem Downloads.sound (h : Downloads P) {name : String} (hname : Drawn name) :
    soundPicture P (P.downloadURL name) = true := by
  have htoken := h.token name hname
  have himage := h.image name hname
  obtain ⟨uuid, rfl, huuid⟩ := hname
  have huuid := List.all_eq_true.mp huuid
  have hbucket : hasInfix "media%2F".toList P.bucket.toList = false := by
    refine Bool.eq_false_iff.mpr (fun hmem => ?_)
    obtain ⟨s, s', hs⟩ := hasInfix_iff.mp hmem
    have hpercent := h.bucket '%' (by simp [hs])
    exact absurd hpercent (by decide)
  rw [soundPicture, canShow, ProfileVC.urlOf_downloadURL h.bucket huuid htoken,
    ProfileVC.oldUUID_url hbucket huuid, decide_eq_true himage]
  rfl

theorem not_fatalReply {r : Request} {a : Except String r.Answer} {d : Device} (hd : Running d)
    (hpassword : ∀ vc uid password, r = .updatePassword vc uid password → a.isOk = true →
      d.currentUser.isSome = true)
    (hshown : ∀ coll doc, (coll, doc) ∈ r.operation.results a → soundDocs P coll doc.data)
    (hplaylists : ∀ coll p, r = .checkPlaylists coll p → coll ≠ .userInfo) :
    fatalReply P d r a = false := by
  cases r with
  | updatePassword vc uid password =>
    cases a with
    | error err => rfl
    | ok _ =>
      have huser := hpassword vc uid password rfl rfl
      rw [fatalReply, Option.isNone_eq_false_iff]
      exact huser
  | checkPlaylists coll p =>
    cases a with
    | error err => rfl
    | ok docs =>
      rw [fatalReply, Bool.and_eq_false_iff]
      refine Or.inr (List.any_eq_false.mpr (fun doc hdoc => ?_))
      have hsound := hshown coll doc (List.mem_map_of_mem hdoc)
      have hopen : canOpen (MapVC.linkOf doc.data) = true := by
        cases coll with
        | userInfo => exact absurd rfl (hplaylists _ _ rfl)
        | masterPlaylists => exact hsound
        | userPlaylists => exact hsound
      rw [hopen]
      exact Bool.false_ne_true
  | viewForUserInfo pin email =>
    cases a with
    | error err => rfl
    | ok docs =>
      rw [fatalReply]
      refine List.any_eq_false.mpr (fun doc hdoc hany => ?_)
      obtain ⟨url, hurl, hnot⟩ := (Option.any_eq_true ..).mp hany
      have hsound := hshown .userInfo doc (List.mem_map_of_mem hdoc) url hurl
      rw [soundPicture, Bool.and_eq_true] at hsound
      rw [hsound.1] at hnot
      cases hnot
  | pictureURL name =>
    cases a with
    | error err => rfl
    | ok url =>
      rw [fatalReply]
      rcases hd.2 with hempty | hname
      · rw [hempty]
        rfl
      · rw [Bool.and_eq_false_iff, Option.isNone_eq_false_iff]
        exact Or.inr hname
  | _ => rfl

/-! ### Calls -/

theorem fits_sound_of_absent {coll : CollectionName} {id : ℕ} {data : Dict}
    (hlink : ∀ m, data.fields m .spotifyLink = none)
    (hpicture : ∀ m, data.fields m .profilePicURL = none) :
    (Operation.setData coll id data).Fits (soundDocs P) := by
  intro m old hold
  have hopen : (∀ f, old = some f → canOpen (MapVC.linkOf f) = true) →
      canOpen (MapVC.linkOf (data.merge m old)) = true := by
    intro hold
    rw [MapVC.linkOf, Dict.merge, hlink m, Option.none_or]
    cases old with
    | none =>
      obtain ⟨r, hr, hspotify⟩ := defaultLink_ofSpotify
      show (urlOf MapVC.defaultLink).isSome = true
      rw [urlOf_ofSpotify hr hspotify]
      rfl
    | some f => exact hold f rfl
  cases coll with
  | masterPlaylists => exact hopen hold
  | userPlaylists => exact hopen hold
  | userInfo =>
    intro url hurl
    rw [getString, Dict.merge, hpicture m, Option.none_or] at hurl
    cases old with
    | none => cases hurl
    | some f => exact hold f rfl url hurl

/-- **A call keeps the documents sound** when the link or the picture that it brings is. -/
theorem fits_sound {r : Request}
    (hlink : ∀ title author email p link, r = .addPlaylist title author email p link →
      (urlOf link).isSome = true)
    (hpicture : ∀ id url, r = .storePicture id url → soundPicture P url = true) :
    r.operation.Fits (soundDocs P) := by
  cases r with
  | storeHasFound coll id l email => exact fits_sound_of_absent (fun _ => rfl) (fun _ => rfl)
  | storeFound id n => exact fits_sound_of_absent (fun _ => rfl) (fun _ => rfl)
  | storeCreated id n => exact fits_sound_of_absent (fun _ => rfl) (fun _ => rfl)
  | storeEmail id email => exact fits_sound_of_absent (fun _ => rfl) (fun _ => rfl)
  | storePassword id password => exact fits_sound_of_absent (fun _ => rfl) (fun _ => rfl)
  | storeUsername vc id username => exact fits_sound_of_absent (fun _ => rfl) (fun _ => rfl)
  | storeRadius vc id mapRadius => exact fits_sound_of_absent (fun _ => rfl) (fun _ => rfl)
  | storePicture id imgURL =>
    intro m old hold url hurl
    obtain rfl : imgURL = url := Option.some.inj hurl
    exact hpicture id imgURL rfl
  | addPlaylist title author email p link => exact fun m => hlink title author email p link rfl
  | addUserInfo username email password => exact fun m url hurl => by cases hurl
  | _ => trivial

theorem sound_start {c : ℕ} {e : Event} {d : Device} (live : d.crashed = false)
    (hlink : ∀ vc, e = .addPlaylistClicked vc → AddPlaylistVC.accepts d vc = true →
      (urlOf (d.text vc .linkTextField)).isSome = true)
    (huuid : ∀ uuid, e = .storeProfilePic uuid → uuid.toList.all ProfileVC.isUUIDChar = true) :
    ∀ r ∈ (start e d).2, r.operation.Fits (soundDocs P) ∧ CarriesSound P (.issue c r) := by
  intro r hr
  have hbegins := start_begins e live r hr
  have hopens := start_opens e live r hr
  constructor
  · refine fits_sound (fun title author email p link hadd => ?_) (fun id url hstore => ?_)
    · subst hadd
      cases e with
      | addPlaylistClicked vc =>
        obtain ⟨haccepts, hadd | hask⟩ := hbegins
        · cases hadd
          exact hlink vc rfl haccepts
        · cases hask
      | updateClicked vc selectedEditID => cases selectedEditID <;> simp_all [Begins]
      | _ => simp_all [Begins]
    · subst hstore
      cases hopens
  · cases r with
    | checkPlaylists coll p =>
      have hplaylists : decide (coll ≠ .userInfo) = true := hopens
      exact (of_decide_eq_true hplaylists : coll ≠ .userInfo)
    | putPicture name =>
      cases e with
      | storeProfilePic uuid =>
        cases hbegins
        exact ⟨uuid, rfl, huuid uuid rfl⟩
      | updateClicked vc selectedEditID => cases selectedEditID <;> simp_all [Begins]
      | _ => simp_all [Begins]
    | pictureURL name => cases hopens
    | pictureUserInfo email url => cases hopens
    | storePicture id url => cases hopens
    | _ => trivial

theorem sound_resume {c : ℕ} {r : Request} {m : ℤ} {a : Except String r.Answer} {d : Device}
    (h : CarriesSound P ⟨c, r, some a⟩) :
    ∀ r' ∈ (resume P r m a d).2, r'.operation.Fits (soundDocs P) ∧ CarriesSound P (.issue c r') := by
  intro r' hr'
  have hleads := resume_leads P r m a d r' hr'
  have hcarried : CarriesSound P (.issue c r') := by
    cases r' with
    | checkPlaylists coll p => cases r <;> simp_all [Leads]
    | putPicture name => cases r <;> simp_all [Leads]
    | pictureURL name =>
      cases r with
      | putPicture name' =>
        cases hleads
        exact ⟨h, fun url hreply => by cases hreply⟩
      | _ => simp_all [Leads]
    | pictureUserInfo email url =>
      cases r with
      | pictureURL name =>
        obtain ⟨imgURL, rfl, hr | ⟨old, hr, -⟩⟩ := pictureURL_requests hr'
        · cases hr
          exact h.2 _ rfl
        · cases hr
      | _ => simp_all [Leads]
    | storePicture id url =>
      cases r with
      | pictureUserInfo email imgURL =>
        obtain ⟨id', hstore⟩ := hleads
        cases hstore
        exact h
      | _ => simp_all [Leads]
    | _ => trivial
  refine ⟨fits_sound (fun title author email p link hadd => ?_) (fun id url hstore => ?_), hcarried⟩
  · subst hadd
    cases r <;> simp_all [Leads]
  · subst hstore
    exact hcarried

theorem CarriesSound.answer {j : Job} {m : ℤ} {b : Backend} (hdown : Downloads P)
    (h : CarriesSound P j) : CarriesSound P (j.answer (j.request.operation.exec P m b).2) := by
  obtain ⟨c, r, reply⟩ := j
  cases r with
  | pictureURL name =>
    refine ⟨h.1, fun url hreply => ?_⟩
    have hanswer : ((Operation.downloadURL name).exec P m b).2 = .ok url := Option.some.inj hreply
    rw [Operation.exec] at hanswer
    split at hanswer
    · cases hanswer
      exact hdown.sound h.1
    · cases hanswer
  | _ => exact h

theorem CarriesSound.fail {j : Job} {err : String} (h : CarriesSound P j) :
    CarriesSound P (j.answer (.error err)) := by
  obtain ⟨c, r, reply⟩ := j
  cases r with
  | pictureURL name => exact ⟨h.1, fun url hreply => by cases hreply⟩
  | _ => exact h

/-! ### Devices -/

theorem load_picture {u : UserSingleton} {f : Fields} (hf : soundDocs P .userInfo f)
    (h : u.profilePicURL = "" ∨ (ProfileVC.oldUUID u.profilePicURL).isSome = true) :
    (u.load f).profilePicURL = "" ∨ (ProfileVC.oldUUID (u.load f).profilePicURL).isSome = true := by
  rw [UserSingleton.load]
  split
  · show (getString f .profilePicURL).getD u.profilePicURL = "" ∨
      (ProfileVC.oldUUID ((getString f .profilePicURL).getD u.profilePicURL)).isSome = true
    cases hurl : getString f .profilePicURL with
    | none => exact h
    | some url =>
      have hsound := hf url hurl
      rw [soundPicture, Bool.and_eq_true] at hsound
      exact Or.inr hsound.2
  · exact h

theorem shares_picture {c : ℕ} {r : Request} {a : Except String r.Answer} {d : Device}
    {u : UserSingleton} (hcarried : CarriesSound P ⟨c, r, some a⟩)
    (hshown : ∀ coll doc, (coll, doc) ∈ r.operation.results a → soundDocs P coll doc.data)
    (h : u.profilePicURL = "" ∨ (ProfileVC.oldUUID u.profilePicURL).isSome = true) :
    (shares d r a u).profilePicURL = "" ∨
      (ProfileVC.oldUUID (shares d r a u).profilePicURL).isSome = true := by
  cases r with
  | getUserInfo email =>
    cases a with
    | error err => exact h
    | ok docs =>
      rw [shares]
      have hdocs : ∀ doc ∈ docs, soundDocs P .userInfo doc.data :=
        fun doc hdoc => hshown .userInfo doc (List.mem_map_of_mem hdoc)
      clear hshown hcarried
      induction docs generalizing u with
      | nil => exact h
      | cons doc docs ih =>
        exact ih (load_picture (hdocs doc List.mem_cons_self) h)
          (fun doc' hdoc' => hdocs doc' (List.mem_cons_of_mem doc hdoc'))
  | storePicture id url =>
    cases a with
    | error err => exact h
    | ok _ =>
      have hsound : soundPicture P url = true := hcarried
      rw [soundPicture, Bool.and_eq_true] at hsound
      exact Or.inr hsound.2
  | _ => cases a <;> exact h

/-! ### Runs -/

/-- **One careful move** crashes no device. -/
theorem step_crashFree (hdown : Downloads P) (h : CrashFree P s) (guard : careful s ℓ = true)
    (move : Step (app P) s ℓ s') : CrashFree P s' := by
  -- the calls that the move leaves
  have hevent : ∀ c e, ℓ = .event c e → ∀ r ∈ (start e (s.locals c)).2,
      r.operation.Fits (soundDocs P) ∧ CarriesSound P (.issue c r) := by
    rintro c e rfl
    refine sound_start (h.running c).1 ?_ ?_
    · rintro vc rfl haccepts
      rw [careful, haccepts] at guard
      exact guard
    · rintro uuid rfl
      exact guard
  have hreply : ∀ j ∈ s.jobs, ∀ a, j.reply = some a → ∀ m,
      ∀ r ∈ (resume P j.request m a (s.locals j.client)).2,
        r.operation.Fits (soundDocs P) ∧ CarriesSound P (.issue j.client r) := by
    intro j hj a answered m
    have hcarried := h.carried j hj
    rw [Job.eq_of_reply answered] at hcarried
    exact sound_resume hcarried
  obtain ⟨hstored, hshaped⟩ := step_shaped h.stored h.shaped move
    (fun c e hℓ _ r hr => (hevent c e hℓ r hr).1)
    (fun js₁ j js₂ m a _ split answered _ r hr => (hreply j (mem_of_split split) a answered m r hr).1)
  refine ⟨?_, hstored, hshaped, ?_⟩
  · -- the device that moves
    have hproceed : ∀ c₀ d', Running d' → ∀ c, Running (Function.update s.locals c₀ d' c) := by
      intro c₀ d' hd' c
      by_cases hc : c = c₀
      · rw [hc, Function.update_self]
        exact hd'
      · rw [Function.update_of_ne hc]
        exact h.running c
    cases move with
    | event c₀ e live =>
      have hlive := (h.running c₀).1
      refine hproceed c₀ _ ⟨?_, ?_⟩
      · rw [app_start, start_crashed e hlive]
        cases e with
        | addPlaylistClicked | storeProfilePic => rfl
        | _ => simpa [careful] using guard
      · rw [app_start, start_shared e hlive]
        split
        · exact Or.inl rfl
        · exact (h.running c₀).2
    | effect j m split waiting => exact h.running
    | fail j err split waiting => exact h.running
    | @deliver js₁ js₂ j m a split answered live =>
      have hlive := (h.running j.client).1
      have hj := mem_of_split split
      have hcarried := h.carried j hj
      rw [Job.eq_of_reply answered] at hcarried
      have hshown := (h.shaped j hj).shown a answered
      refine hproceed j.client _ ⟨?_, ?_⟩
      · rw [app_resume, resume_crashed P j.request m a hlive]
        refine not_fatalReply (h.running j.client) (fun vc uid password hr hok => ?_) hshown
          (fun coll p hr => ?_)
        · have hget := getElem?_split split
          obtain ⟨c, r, reply⟩ := j
          change Except String r.Answer at a
          obtain rfl : reply = some a := answered
          subst hr
          rw [careful, hget] at guard
          cases a with
          | ok _ => exact guard
          | error err => cases hok
        · obtain ⟨c, r, reply⟩ := j
          cases hr
          exact hcarried
      · rw [app_resume, resume_shared P j.request m a hlive]
        exact shares_picture hcarried hshown (h.running j.client).2
  · refine move.jobs (φ := fun _ j => CarriesSound P j) h.carried ?_ ?_ ?_ ?_
    · exact fun c e hℓ _ r hr => (hevent c e hℓ r hr).2
    · exact fun js₁ j js₂ m _ split _ => ⟨(h.carried j (mem_of_split split)).answer hdown,
        fun j' hj' => h.carried j' ((rest_sublist split).subset hj')⟩
    · exact fun js₁ j js₂ err _ split _ => (h.carried j (mem_of_split split)).fail
    · exact fun js₁ j js₂ m a _ split answered _ r hr =>
        (hreply j (mem_of_split split) a answered m r hr).2

theorem downloads_sample : Downloads .sample where
  bucket := forall_of_all (by decide)
  token := by
    rintro name ⟨uuid, rfl, huuid⟩ c hc
    have hname : c ∈ uuid.toList ++ ".jpg".toList := by
      rw [← String.toList_append]
      exact hc
    rcases List.mem_append.mp hname with hc | hc
    · exact ProfileVC.isUnreserved_of_isUUIDChar (List.all_eq_true.mp huuid c hc)
    · exact forall_of_all (p := fun c => Uri.isUnreserved c = true) (by decide) c hc
  image _ _ := nofun

theorem oldPlaylist_sound : Stored (soundDocs .sample) oldPlaylist.store := by
  intro coll id f hf
  cases coll with
  | masterPlaylists => cases hf
  | userPlaylists =>
    cases id with
    | zero =>
      cases hf
      show canOpen (.string MapVC.defaultLink) = true
      decide
    | succ n => cases hf
  | userInfo =>
    rcases id with _ | _ | n
    · cases hf
      exact fun url hurl => by cases hurl
    · cases hf
      exact fun url hurl => by cases hurl
    · cases hf

end SpotiFriend

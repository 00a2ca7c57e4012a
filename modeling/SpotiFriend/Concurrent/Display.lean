import SpotiFriend.Async.Provenance
import SpotiFriend.Concurrent.Deletion
import SpotiFriend.Spec.Moves

/-!
# Nothing is shown that was not stored

A device shows pins and profile pictures and hands links to Spotify, all from results that may
be old by then.  Here everything that is shown is traced back through the calls: to the
documents that the queries found, and to the event that asked for them.

Main results, for all that the app can do, with any calls failing and in any order:

* `shown_traces`: a move keeps the traces of what is shown and of the jobs in flight;
* `shown_stored`: each pin, link and picture on a device was in a document at some time of the
  run, a link at the place that was tapped, and a picture with the author of a playlist at the
  place of the pin; only a playlist without a link opens the default one.
-/

namespace SpotiFriend

open Async SpotiFriend.Action MapVC

abbrev History := List (State × Label)

def WasStored (h : History) (coll : CollectionName) (f : Fields) : Prop :=
  ∃ x ∈ h, ∃ id, x.1.store.doc? coll id = some f

def Happened (h : History) (c : ℕ) (e : Event) : Prop := ∃ t, (t, Label.event c e) ∈ h

/-- The pin is at a place where there was a playlist of the user with the email. -/
def Authored (h : History) (c : ℕ) (pin : ℕ) (email : String) : Prop :=
  ∃ p f, Happened h c (.viewFor pin p) ∧ WasStored h .userPlaylists f ∧
    (Query.atCoordinate .userPlaylists p).holds f = true ∧ f .email = some (.string email)

def placeholder (coords : Coordinate) : Annotation :=
  ⟨"Playlist will be placed here!", "tap again to replace", coords⟩

def PinTraced (h : History) (c : ℕ) (map : VC) (a : Annotation) : Prop :=
  (∃ coords, a = placeholder coords ∧ Happened h c (.mapLongPressed map coords)) ∨
    ∃ coll f, coll ≠ .userInfo ∧ WasStored h coll f ∧ annotationOf f = some a

/-- Where the link comes from: a playlist without a link opens the default one. -/
def LinkTraced (h : History) (c : ℕ) (link : String) : Prop :=
  ∃ p coll f, coll ≠ .userInfo ∧ Happened h c (.calloutTapped p) ∧ WasStored h coll f ∧
    (Query.atCoordinate coll p).holds f = true ∧
    (f .spotifyLink = some (.string link) ∨ f .spotifyLink = none ∧ link = defaultLink)

def PictureTraced (h : History) (c : ℕ) (pin : ℕ) (url : String) : Prop :=
  ∃ email f, Authored h c pin email ∧ WasStored h .userInfo f ∧
    f .email = some (.string email) ∧ f .profilePicURL = some (.string url)

structure DeviceTraced (h : History) (c : ℕ) (d : Device) : Prop where
  pins : ∀ map, ∀ a ∈ d.annotations map, PinTraced h c map a
  links : ∀ link ∈ d.opened, LinkTraced h c link
  pictures : ∀ x ∈ d.pinImages, PictureTraced h c x.1 x.2

def Found (h : History) : (o : Operation) → Except String o.Answer → Prop
  | .getDocuments q, .ok docs =>
    ∀ doc ∈ docs, WasStored h q.collection doc.data ∧ q.holds doc.data = true
  | _, _ => True

def Cause (h : History) (c : ℕ) : Request → Prop
  | .checkPlaylists coll p => coll ≠ .userInfo ∧ Happened h c (.calloutTapped p)
  | .viewForPlaylist pin p => Happened h c (.viewFor pin p)
  | .viewForUserInfo pin email => Authored h c pin email
  | _ => True

structure JobTraced (h : History) (j : Job) : Prop where
  cause : Cause h j.client j.request
  found : ∀ a, j.reply = some a → Found h j.request.operation a

variable {P : Platform} {s s' : State} {ℓ : Label} {ls : List Label} {h h' : History} {c : ℕ}
  {d : Device} {m : ℤ}

theorem linkOf_eq {f : Fields} {link : String} : linkOf f = .string link ↔
    f .spotifyLink = some (.string link) ∨ f .spotifyLink = none ∧ link = defaultLink := by
  rw [linkOf]
  cases f .spotifyLink with
  | none => simp [eq_comm]
  | some v => simp

/-! ### The past only grows -/

theorem WasStored.mono {coll : CollectionName} {f : Fields} (hsub : h ⊆ h')
    (hf : WasStored h coll f) : WasStored h' coll f := by
  obtain ⟨x, hx, id, hid⟩ := hf
  exact ⟨x, hsub hx, id, hid⟩

theorem Happened.mono {e : Event} (hsub : h ⊆ h') (he : Happened h c e) : Happened h' c e := by
  obtain ⟨t, ht⟩ := he
  exact ⟨t, hsub ht⟩

theorem Authored.mono {pin : ℕ} {email : String} (hsub : h ⊆ h') (ha : Authored h c pin email) :
    Authored h' c pin email := by
  obtain ⟨p, f, he, hf, hplace, hemail⟩ := ha
  exact ⟨p, f, he.mono hsub, hf.mono hsub, hplace, hemail⟩

theorem DeviceTraced.mono (hsub : h ⊆ h') (hd : DeviceTraced h c d) : DeviceTraced h' c d where
  pins map a ha := by
    rcases hd.pins map a ha with ⟨coords, hmark, he⟩ | ⟨coll, f, hcoll, hf, hpin⟩
    · exact Or.inl ⟨coords, hmark, he.mono hsub⟩
    · exact Or.inr ⟨coll, f, hcoll, hf.mono hsub, hpin⟩
  links link hlink := by
    obtain ⟨p, coll, f, hcoll, he, hf, hplace, hopen⟩ := hd.links link hlink
    exact ⟨p, coll, f, hcoll, he.mono hsub, hf.mono hsub, hplace, hopen⟩
  pictures x hx := by
    obtain ⟨email, f, ha, hf, hemail, hurl⟩ := hd.pictures x hx
    exact ⟨email, f, ha.mono hsub, hf.mono hsub, hemail, hurl⟩

theorem Found.mono {o : Operation} {a : Except String o.Answer} (hsub : h ⊆ h')
    (ha : Found h o a) : Found h' o a := by
  cases o with
  | getDocuments q =>
    cases a with
    | error err => trivial
    | ok docs => exact fun doc hdoc => ⟨(ha doc hdoc).1.mono hsub, (ha doc hdoc).2⟩
  | _ => trivial

theorem Cause.mono {r : Request} (hsub : h ⊆ h') (hr : Cause h c r) : Cause h' c r := by
  cases r with
  | checkPlaylists coll p => exact ⟨hr.1, hr.2.mono hsub⟩
  | viewForPlaylist pin p => exact Happened.mono hsub hr
  | viewForUserInfo pin email => exact Authored.mono hsub hr
  | _ => trivial

theorem JobTraced.mono {j : Job} (hsub : h ⊆ h') (hj : JobTraced h j) : JobTraced h' j :=
  ⟨hj.cause.mono hsub, fun a ha => (hj.found a ha).mono hsub⟩

/-! ### What events and handlers show -/

/-- **An event** takes pins away or marks a place, and shows nothing else. -/
theorem start_display (e : Event) (live : d.crashed = false) :
    (start e d).1.opened = d.opened ∧ (start e d).1.pinImages = d.pinImages ∧
    ∀ map, ∀ a ∈ (start e d).1.annotations map, a ∈ d.annotations map ∨
      ∃ coords, e = .mapLongPressed map coords ∧ a = placeholder coords := by
  have hcleared : ∀ map map', ∀ a ∈ Function.update d.annotations map [] map',
      a ∈ d.annotations map' := by
    intro map map' a ha
    by_cases hmap : map' = map
    · rw [hmap, Function.update_self] at ha
      cases ha
    · rw [Function.update_of_ne hmap] at ha
      exact ha
  obtain ⟨l, hl⟩ := start_device e live
  rw [hl]
  cases e with
  | reloadMapClicked map => exact ⟨rfl, rfl, fun map' a ha => Or.inl (hcleared map map' a ha)⟩
  | didUpdateLocations map locations =>
    cases locations with
    | nil => exact ⟨rfl, rfl, fun _ _ => Or.inl⟩
    | cons latestLoc _ => exact ⟨rfl, rfl, fun map' a ha => Or.inl (hcleared map map' a ha)⟩
  | mapLongPressed vc coords =>
    refine ⟨rfl, rfl, fun map a ha => ?_⟩
    dsimp only [after] at ha
    by_cases hmap : map = vc
    · rw [hmap, Function.update_self] at ha
      rcases List.mem_append.mp ha with ha | ha
      · exact Or.inl (hmap ▸ ha)
      · exact Or.inr ⟨coords, by rw [hmap], List.mem_singleton.mp ha⟩
    · rw [Function.update_of_ne hmap] at ha
      exact Or.inl ha
  | logOutClicked signOut => cases signOut <;> exact ⟨rfl, rfl, fun _ _ => Or.inl⟩
  | updateClicked vc selectedEditID => cases selectedEditID <;> exact ⟨rfl, rfl, fun _ _ => Or.inl⟩
  | _ => exact ⟨rfl, rfl, fun _ _ => Or.inl⟩

theorem addAnnotation_pins (map map' : VC) (a : Annotation) :
    Appends (fun d => d.annotations map') (fun x => map' = map ∧ x = a) (MapVC.addAnnotation map a) := by
  intro d
  by_cases hmap : map' = map
  · refine ⟨[a], by rw [hmap]; exact Function.update_self .., fun x hx => ?_⟩
    exact ⟨hmap, List.mem_singleton.mp hx⟩
  · refine ⟨[], ?_, fun x hx => absurd hx List.not_mem_nil⟩
    rw [List.append_nil]
    exact Function.update_of_ne hmap ..

theorem addUserAnnotation_pins (map map' : VC) (doc : Doc) :
    Appends (fun d => d.annotations map') (fun x => annotationOf doc.data = some x) <|
      addUserAnnotation P map m doc := by
  rw [MapVC.addUserAnnotation]
  split
  · split
    · exact .of_keeps (.issue _)
    · split
      · next a ha =>
        intro d
        dsimp only
        split
        · split
          · obtain ⟨l, hl, hmem⟩ := addAnnotation_pins map map' a d
            exact ⟨l, hl, fun x hx => by rw [(hmem x hx).2, ha]⟩
          · exact ⟨[], (List.append_nil _).symm, List.forall_mem_nil _⟩
        · exact ⟨[], (List.append_nil _).symm, List.forall_mem_nil _⟩
      · exact .of_keeps .skip
  · exact .of_keeps .skip

theorem DeviceTraced.appends {a : Action} (hd : DeviceTraced h c d)
    (hpins : ∀ map, Appends (fun d => d.annotations map) (PinTraced h c map) a)
    (hlinks : Appends (fun d => d.opened) (LinkTraced h c) a)
    (hpictures : Appends (fun d => d.pinImages) (fun x => PictureTraced h c x.1 x.2) a) :
    DeviceTraced h c (a d).1 := by
  refine ⟨fun map x hx => ?_, fun link hlink => ?_, fun x hx => ?_⟩
  · obtain ⟨l, hl, htraced⟩ := hpins map d
    change (a d).1.annotations map = d.annotations map ++ l at hl
    rw [hl] at hx
    exact (List.mem_append.mp hx).elim (hd.pins map x) (htraced x)
  · obtain ⟨l, hl, htraced⟩ := hlinks d
    change (a d).1.opened = d.opened ++ l at hl
    rw [hl] at hlink
    exact (List.mem_append.mp hlink).elim (hd.links link) (htraced link)
  · obtain ⟨l, hl, htraced⟩ := hpictures d
    change (a d).1.pinImages = d.pinImages ++ l at hl
    rw [hl] at hx
    exact (List.mem_append.mp hx).elim (hd.pictures x) (htraced x)

/-- **A handler** shows only what its result found. -/
theorem resume_display {r : Request} {a : Except String r.Answer} (live : d.crashed = false)
    (hj : JobTraced h ⟨c, r, some a⟩) (hd : DeviceTraced h c d) :
    DeviceTraced h c (resume P r m a d).1 := by
  have hfound := hj.found a rfl
  -- the SDK's part of a reply shows nothing
  have huser : DeviceTraced h c { d with currentUser := authState r a d.currentUser } :=
    ⟨hd.pins, hd.links, hd.pictures⟩
  cases r with
  | addStaticAnnotations map =>
    refine huser.appends (fun map' => .orAlert (fun _ _ => rfl) ?_)
      (.orAlert (fun _ _ => rfl) (fun _ _ => .of_keeps (.forEach (fun doc _ => ?_))))
      (.orAlert (fun _ _ => rfl) (fun _ _ => .of_keeps (.forEach (fun doc _ => ?_))))
    · rintro docs rfl
      refine .forEach (fun doc hdoc => ?_)
      split
      · next x hx =>
        refine (addAnnotation_pins map map' x).mono (fun y hy => Or.inr ?_)
        rw [hy.2]
        exact ⟨.masterPlaylists, doc.data, by decide, (hfound doc hdoc).1, hx⟩
      · exact .of_keeps .skip
    · split
      · exact fun _ => rfl
      · exact .skip
    · split
      · exact fun _ => rfl
      · exact .skip
  | addUserAnnotations map =>
    refine huser.appends (fun map' => .orAlert (fun _ _ => rfl) ?_)
      (.orAlert (fun _ _ => rfl) (fun _ _ => .of_keeps (.forEach (fun doc _ =>
        addUserAnnotation_keeps map m doc (fun _ _ _ => rfl)))))
      (.orAlert (fun _ _ => rfl) (fun _ _ => .of_keeps (.forEach (fun doc _ =>
        addUserAnnotation_keeps map m doc (fun _ _ _ => rfl)))))
    rintro docs rfl
    refine .forEach (fun doc hdoc => (addUserAnnotation_pins map map' doc).mono (fun x hx => ?_))
    exact Or.inr ⟨.userPlaylists, doc.data, by decide, (hfound doc hdoc).1, hx⟩
  | checkPlaylists coll p =>
    refine huser.appends (fun map' => .of_keeps (checkPlaylistsReply_keeps (fun _ _ _ _ => rfl)))
      ((checkPlaylists_opened coll a).mono ?_)
      (.of_keeps (checkPlaylistsReply_keeps (fun _ _ _ _ => rfl)))
    rintro link ⟨docs, rfl, doc, hdoc, hlink⟩
    obtain ⟨hstored, hplace⟩ := hfound doc hdoc
    exact ⟨p, coll, doc.data, hj.cause.1, hj.cause.2, hstored, hplace, linkOf_eq.mp hlink⟩
  | viewForUserInfo pin email =>
    refine huser.appends (fun map' => .of_keeps (.orAlert (fun _ _ => rfl) (fun _ _ =>
        .forEach (fun doc _ => ?_)))) (.of_keeps (viewForUserInfo_opened P pin a))
      (.orAlert (fun _ _ => rfl) ?_)
    · split
      · exact showPicture_keeps P pin _ (fun _ _ _ => rfl)
      · exact .skip
    · rintro docs rfl
      refine .forEach (fun doc hdoc => ?_)
      obtain ⟨hstored, hemail⟩ := hfound doc hdoc
      split
      · next url hurl =>
        refine (showPicture_pinImages P pin url).mono (fun x hx => ?_)
        obtain ⟨v, hv, hstring⟩ := Option.bind_eq_some_iff.mp hurl
        obtain rfl := Value.asString_eq_some.mp hstring
        rw [hx]
        exact ⟨email, doc.data, hj.cause, hstored, Query.holds_userInfo.mp hemail, hv⟩
      · exact .of_keeps .skip
  | _ =>
    rw [resume_device _ m a live rfl]
    exact ⟨hd.pins, hd.links, hd.pictures⟩

/-! ### Runs -/

theorem start_cause {e : Event} (live : d.crashed = false) (he : Happened h c e) :
    ∀ r ∈ (start e d).2, JobTraced h (.issue c r) := by
  intro r hr
  have hbegins := start_begins e live r hr
  have hopens := start_opens e live r hr
  refine ⟨?_, fun a ha => by cases ha⟩
  cases r with
  | checkPlaylists coll p =>
    cases e with
    | calloutTapped p' =>
      rcases hbegins with hr | hr
      · cases hr
        exact ⟨by decide, he⟩
      · cases hr
        exact ⟨by decide, he⟩
    | updateClicked vc selectedEditID => cases selectedEditID <;> simp_all [Begins]
    | _ => simp_all [Begins]
  | viewForPlaylist pin p =>
    cases e with
    | viewFor pin' p' =>
      cases hbegins
      exact he
    | updateClicked vc selectedEditID => cases selectedEditID <;> simp_all [Begins]
    | _ => simp_all [Begins]
  | viewForUserInfo pin email => cases hopens
  | _ => trivial

/-- The author who is looked up is that of a playlist that was found. -/
theorem resume_cause {r : Request} {a : Except String r.Answer} (hj : JobTraced h ⟨c, r, some a⟩) :
    ∀ r' ∈ (resume P r m a d).2, JobTraced h (.issue c r') := by
  intro r' hr'
  have hleads := resume_leads P r m a d r' hr'
  refine ⟨?_, fun a ha => by cases ha⟩
  cases r' with
  | checkPlaylists coll p => cases r <;> simp_all [Leads]
  | viewForPlaylist pin p => cases r <;> simp_all [Leads]
  | viewForUserInfo pin email =>
    cases r with
    | viewForPlaylist pin' p =>
      obtain ⟨docs, rfl, doc, hdoc, email', hemail, hr⟩ := viewForPlaylist_requests pin' a _ _ hr'
      cases hr
      obtain ⟨hstored, hplace⟩ := hj.found _ rfl doc hdoc
      obtain ⟨v, hv, hstring⟩ := Option.bind_eq_some_iff.mp hemail
      obtain rfl := Value.asString_eq_some.mp hstring
      exact ⟨p, doc.data, hj.cause, hstored, hplace, hv⟩
    | _ => simp_all [Leads]
  | _ => trivial

theorem found_exec {o : Operation} {b : Backend}
    (hnow : ∀ coll id f, b.doc? coll id = some f → WasStored h coll f) :
    Found h o (o.exec P m b).2 := by
  cases o with
  | getDocuments q =>
    intro doc hdoc
    obtain ⟨hf, hq⟩ := Backend.mem_getDocuments.mp hdoc
    exact ⟨hnow q.collection doc.id doc.data hf, hq⟩
  | _ => trivial

theorem found_error {o : Operation} {err : String} : Found h o (.error err) := by
  cases o <;> trivial

/-- **The moves** keep all traces. -/
theorem shown_traces : Traces (app P) DeviceTraced JobTraced where
  grows hsub hd := hd.mono hsub
  growsJob hsub hj := hj.mono hsub
  start := by
    intro h s c e hmade live hd
    obtain ⟨hopened, hpictures, hpins⟩ := start_display e (d := s.locals c) (by simpa using live)
    refine ⟨⟨fun map a ha => ?_, ?_, ?_⟩, start_cause (by simpa using live) ⟨s, hmade⟩⟩
    · rcases hpins map a ha with ha | ⟨coords, rfl, rfl⟩
      · exact hd.pins map a ha
      · exact Or.inl ⟨coords, rfl, s, hmade⟩
    · rw [app_start, hopened]
      exact hd.links
    · rw [app_start, hpictures]
      exact hd.pictures
  exec := by
    intro h s i m c r hmade _ hj
    refine ⟨hj.cause, fun a ha => ?_⟩
    obtain rfl := Option.some.inj ha
    exact found_exec (fun coll id f hf => ⟨_, hmade, id, hf⟩)
  fail := by
    intro h c r err hj
    refine ⟨hj.cause, fun a ha => ?_⟩
    obtain rfl := Option.some.inj ha
    exact found_error
  resume := by
    intro h s i m c r a _ live hd hj
    exact ⟨resume_display (by simpa using live) hj hd, resume_cause hj⟩

/-- **Nothing is shown that was not stored.**  In every run of devices that show nothing at the
start, all that they show is traced. -/
theorem shown_stored (quiet : s.jobs = []) (blank : ∀ c, (∀ map, (s.locals c).annotations map = []) ∧
    (s.locals c).opened = [] ∧ (s.locals c).pinImages = [])
    (hrun : Run (app P) (fun _ _ => True) s ls s') (c : ℕ) :
    DeviceTraced (collect (app P) made s ls) c (s'.locals c) := by
  refine (shown_traces.run ⟨fun c => ⟨?_, ?_, ?_⟩, ?_⟩ hrun).1 c
  · intro map a ha
    rw [(blank c).1 map] at ha
    cases ha
  · rw [(blank c).2.1]
    exact List.forall_mem_nil _
  · rw [(blank c).2.2]
    exact List.forall_mem_nil _
  · rw [quiet]
    exact List.forall_mem_nil _

/-- Ann taps the pin, and Spotify is opened. -/
theorem annTapsPin_traced : ∃ s', Run (app .sample) (fun _ _ => True) oldPlaylist (annTapsPin true) s' ∧
    (s'.locals 0).opened = [defaultLink] ∧
    LinkTraced (collect (app .sample) made oldPlaylist (annTapsPin true)) 0 defaultLink := by
  obtain ⟨s', hrun, hend⟩ := Run.exists_of_run (P := app .sample) (G := fun _ _ => true)
    (s := oldPlaylist) (l := annTapsPin true) (Q := fun s' => (s'.locals 0).opened = [defaultLink])
    (by decide +kernel)
  have hopened := of_decide_eq_true hend
  have hfree := hrun.mono (H := fun _ _ => True) (fun _ _ _ => trivial)
  have hblank : ∀ c, (∀ map, (oldPlaylist.locals c).annotations map = []) ∧
      (oldPlaylist.locals c).opened = [] ∧ (oldPlaylist.locals c).pinImages = [] := by
    intro c
    rcases c with _ | _ | c
    · exact ⟨fun _ => rfl, rfl, rfl⟩
    · exact ⟨fun _ => rfl, rfl, rfl⟩
    · exact ⟨fun _ => rfl, rfl, rfl⟩
  refine ⟨s', hfree, hopened, (shown_stored rfl hblank hfree 0).links defaultLink ?_⟩
  rw [hopened]
  exact List.mem_singleton_self _

end SpotiFriend

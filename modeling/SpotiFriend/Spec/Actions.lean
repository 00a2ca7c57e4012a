import SpotiFriend.Model.App

/-!
# What actions keep, append and issue

`Keeps π a`: the action `a` leaves the part `π` of the device as it is.
`Appends π S a`: the action only appends elements of `S` to the list `π`.
`Issues π v Q a`: run on a device whose part `π` is `v`, the action leaves only
requests with the property `Q`.  All are closed under sequences and loops; for a loop
over documents, `forEach_requests` says exactly which requests it leaves when each
round leaves at most one.  The handlers of a tap and of an appearance of the map follow.
-/

namespace SpotiFriend

open SpotiFriend.Action

variable {α β : Type} {π : Device → β} {v : β} {Q : Request → Prop} {a b : Action}

/-- The action leaves `π` as it is. -/
def Keeps (π : Device → β) (a : Action) : Prop := ∀ d, π (a d).1 = π d

/-- The action appends elements of `S` to the list `π`. -/
def Appends (π : Device → List α) (S : α → Prop) (a : Action) : Prop :=
  ∀ d, ∃ l, π (a d).1 = π d ++ l ∧ ∀ x ∈ l, S x

/-- Where `π` is `v`, the action leaves only requests with `Q`. -/
def Issues (π : Device → β) (v : β) (Q : Request → Prop) (a : Action) : Prop :=
  ∀ d, π d = v → ∀ r ∈ (a d).2, Q r

namespace Action

@[simp] theorem skip_apply (d : Device) : skip d = (d, []) := rfl

@[simp] theorem modify_apply (f : Device → Device) (d : Device) : modify f d = (f d, []) := rfl

@[simp] theorem issue_apply (r : Request) (d : Device) : issue r d = (d, [r]) := rfl

@[simp] theorem share_apply (f : UserSingleton → UserSingleton) (d : Device) :
    share f d = ({ d with sharedUserInfo := f d.sharedUserInfo }, []) := rfl

@[simp] theorem orAlert_ok (x : α) (f : α → Action) : orAlert (.ok x) f = f x := rfl

/-- A first action that has nothing to do with crashing is simply followed by the
second. -/
theorem andThen_of_live {d : Device} (h : (a d).1.crashed = false) :
    andThen a b d = ((b (a d).1).1, (a d).2 ++ (b (a d).1).2) := by
  rw [andThen, h]
  rfl

@[simp] theorem andThen_issue (r : Request) {d : Device} (h : d.crashed = false) :
    andThen (issue r) b d = ((b d).1, r :: (b d).2) := andThen_of_live h

end Action

namespace Keeps

theorem skip : Keeps π skip := fun _ => rfl

theorem issue (r : Request) : Keeps π (issue r) := fun _ => rfl

theorem modify {f : Device → Device} (h : ∀ d, π (f d) = π d) : Keeps π (modify f) := h

theorem andThen (ha : Keeps π a) (hb : Keeps π b) : Keeps π (andThen a b) := by
  intro d
  rw [Action.andThen]
  split
  · exact ha d
  · exact (hb _).trans (ha d)

theorem forEach {f : α → Action} {l : List α} (h : ∀ x ∈ l, Keeps π (f x)) :
    Keeps π (forEach f l) := by
  induction l with
  | nil => exact skip
  | cons x l ih =>
    exact andThen (h x List.mem_cons_self) (ih (fun y hy => h y (List.mem_cons_of_mem x hy)))

theorem orAlert {reply : Except String α} {f : α → Action}
    (halert : ∀ d l, π { d with alerts := l } = π d) (h : ∀ x, reply = .ok x → Keeps π (f x)) :
    Keeps π (orAlert reply f) := by
  cases reply with
  | ok x => exact h x rfl
  | error e => exact fun d => halert d _

end Keeps

namespace Appends

variable {π : Device → List α} {S S' : α → Prop}

theorem of_keeps (h : Keeps π a) : Appends π S a := by
  intro d
  exact ⟨[], by rw [h d, List.append_nil], nofun⟩

theorem mono (h : Appends π S a) (hS : ∀ x, S x → S' x) : Appends π S' a := by
  intro d
  obtain ⟨l, hl, hS'⟩ := h d
  exact ⟨l, hl, fun x hx => hS x (hS' x hx)⟩

theorem andThen (ha : Appends π S a) (hb : Appends π S b) : Appends π S (andThen a b) := by
  intro d
  rw [Action.andThen]
  split
  · exact ha d
  · obtain ⟨l, hl, hS⟩ := ha d
    obtain ⟨l', hl', hS'⟩ := hb (a d).1
    refine ⟨l ++ l', by rw [hl', hl, List.append_assoc], fun x hx => ?_⟩
    rcases List.mem_append.mp hx with hx | hx
    · exact hS x hx
    · exact hS' x hx

theorem forEach {f : β → Action} {l : List β} (h : ∀ x ∈ l, Appends π S (f x)) :
    Appends π S (forEach f l) := by
  induction l with
  | nil => exact of_keeps Keeps.skip
  | cons x l ih =>
    exact andThen (h x List.mem_cons_self) (ih (fun y hy => h y (List.mem_cons_of_mem x hy)))

theorem orAlert {reply : Except String β} {f : β → Action}
    (halert : ∀ d l, π { d with alerts := l } = π d)
    (h : ∀ x, reply = .ok x → Appends π S (f x)) : Appends π S (orAlert reply f) := by
  cases reply with
  | ok x => exact h x rfl
  | error e => exact of_keeps (fun d => halert d _)

end Appends

namespace Issues

theorem skip : Issues π v Q skip := by
  intro d _ r hr
  cases hr

theorem issue {r : Request} (h : Q r) : Issues π v Q (issue r) := by
  intro d _ r' hr
  obtain rfl := List.mem_singleton.mp hr
  exact h

theorem modify {f : Device → Device} : Issues π v Q (modify f) := by
  intro d _ r hr
  cases hr

theorem andThen (hπ : Keeps π a) (ha : Issues π v Q a) (hb : Issues π v Q b) :
    Issues π v Q (andThen a b) := by
  intro d hd r hr
  rw [Action.andThen] at hr
  split at hr
  · exact ha d hd r hr
  · rcases List.mem_append.mp hr with hr | hr
    · exact ha d hd r hr
    · exact hb _ ((hπ d).trans hd) r hr

theorem forEach {f : α → Action} {l : List α} (hπ : ∀ x ∈ l, Keeps π (f x))
    (h : ∀ x ∈ l, Issues π v Q (f x)) : Issues π v Q (forEach f l) := by
  induction l with
  | nil => exact skip
  | cons x l ih =>
    exact andThen (hπ x List.mem_cons_self) (h x List.mem_cons_self)
      (ih (fun y hy => hπ y (List.mem_cons_of_mem x hy))
        (fun y hy => h y (List.mem_cons_of_mem x hy)))

theorem orAlert {reply : Except String α} {f : α → Action}
    (h : ∀ x, reply = .ok x → Issues π v Q (f x)) : Issues π v Q (orAlert reply f) := by
  cases reply with
  | ok x => exact h x rfl
  | error e => exact modify

end Issues

/-- A loop whose rounds keep `π` and issue at most one request, which `π` decides: the
loop issues the requests of its first rounds, up to a crash. -/
theorem forEach_requests {f : α → Action} {g : α → Option Request}
    (hπ : ∀ x, Keeps π (f x)) (hg : ∀ x d, π d = v → (f x d).2 = (g x).toList) :
    ∀ (l : List α) (d : Device), π d = v → ((forEach f l d).2).Sublist (l.filterMap g) := by
  intro l
  induction l with
  | nil => intro d _; exact List.Sublist.refl _
  | cons x l ih =>
    intro d hd
    have hx : (x :: l).filterMap g = (g x).toList ++ l.filterMap g := by
      cases h : g x <;> simp [h]
    rw [hx, forEach, andThen]
    split
    · rw [hg x d hd]
      exact List.sublist_append_left _ _
    · rw [hg x d hd]
      exact List.Sublist.append (List.Sublist.refl _) (ih _ ((hπ x d).trans hd))

/-- When the loop does not crash the device, it issues the requests of all its rounds. -/
theorem forEach_requests_of_live {f : α → Action} {g : α → Option Request}
    (hπ : ∀ x, Keeps π (f x)) (hg : ∀ x d, π d = v → (f x d).2 = (g x).toList) :
    ∀ (l : List α) (d : Device), π d = v → (forEach f l d).1.crashed = false →
      (forEach f l d).2 = l.filterMap g := by
  intro l
  induction l with
  | nil => exact fun d _ _ => rfl
  | cons x l ih =>
    intro d hd live
    have hx : (x :: l).filterMap g = (g x).toList ++ l.filterMap g := by
      cases h : g x <;> simp [h]
    rw [forEach, andThen] at live ⊢
    split
    · next hcrashed =>
      rw [if_pos hcrashed, hcrashed] at live
      cases live
    · next hcrashed =>
      rw [if_neg hcrashed] at live
      rw [hx, hg x d hd, ih _ ((hπ x d).trans hd) live]

@[simp] theorem forEach_issue (g : α → Request) : ∀ (l : List α) (d : Device),
    forEach (fun x => issue (g x)) l d = if d.crashed then (d, (l.take 1).map g) else (d, l.map g) := by
  intro l
  induction l with
  | nil => intro d; simp [forEach]
  | cons x l ih =>
    intro d
    rw [forEach, andThen]
    by_cases hd : d.crashed
    · simp [hd]
    · simp [hd, ih]

/-! ### Taps and appearances of the map -/

namespace MapVC

theorem viewWillAppear_apply {d : Device} (hd : d.crashed = false) : viewWillAppear d =
    ({ d with mapShown := true, sharedUserInfo := .reset, crashed := d.currentUser.isNone },
      (d.currentUser.map (fun user => Request.getUserInfo user.email)).toList) := by
  rw [viewWillAppear, andThen_of_live (by exact hd), getUserInfo, andThen_of_live (by exact hd)]
  cases h : d.currentUser with
  | none => simp [crash, h]
  | some user => simp [h, hd]

theorem calloutTapped_apply {d : Device} (hd : d.crashed = false) (p : Coordinate) :
    calloutTapped p d =
      (d, [.checkPlaylists .masterPlaylists p, .checkPlaylists .userPlaylists p]) := by
  rw [calloutTapped, checkMasterPlaylists, checkUserPlaylists, andThen_issue _ hd]
  rfl

/-- The counter is written to every document of the result, one above the counter in
memory. -/
theorem foundUserInfoReply_apply {d : Device} (hd : d.crashed = false) (docs : List Doc) :
    foundUserInfoReply (.ok docs) d = (d, docs.map (fun doc =>
      .storeFound doc.id (d.sharedUserInfo.totalPlaylistsFound + 1))) := by
  rw [foundUserInfoReply, orAlert_ok]
  induction docs with
  | nil => rfl
  | cons doc docs ih =>
    rw [forEach, andThen_of_live (by exact hd), issue_apply, ih]
    rfl

/-- The request by which `email` is added to those who have found the playlist. -/
def found? (coll : CollectionName) (email : String) (doc : Doc) : Option Request :=
  match getStrings doc.data .hasFound with
  | some hasFound =>
    if hasFound.contains email then none
    else some (.storeHasFound coll doc.id (hasFound ++ [email]) email)
  | none => none

theorem found?_eq_some {coll : CollectionName} {email : String} {doc : Doc} {r : Request} :
    found? coll email doc = some r ↔ ∃ hasFound, getStrings doc.data .hasFound = some hasFound ∧
      email ∉ hasFound ∧ r = .storeHasFound coll doc.id (hasFound ++ [email]) email := by
  rw [found?]
  cases getStrings doc.data .hasFound with
  | none => simp
  | some l =>
    by_cases h : email ∈ l
    · simp [h]
    · simp [h, eq_comm]

theorem markFound_requests (coll : CollectionName) (doc : Doc) (d : Device) :
    (markFound coll doc d).2 = (found? coll d.sharedUserInfo.email doc).toList := by
  rw [markFound, found?]
  cases getStrings doc.data .hasFound with
  | none => rfl
  | some l =>
    by_cases h : d.sharedUserInfo.email ∈ l
    · simp [h]
    · simp [h]

@[simp] theorem markFound_device (coll : CollectionName) (doc : Doc) (d : Device) :
    (markFound coll doc d).1 = d := by
  rw [markFound]
  cases getStrings doc.data .hasFound with
  | none => rfl
  | some l =>
    by_cases h : d.sharedUserInfo.email ∈ l
    · simp [h]
    · simp [h]

/-- Opening a link issues nothing and changes no more than the record of links, the
alerts and whether the app has crashed. -/
theorem openLink_cases (link : Value) (d : Device) : ∃ o l x,
    openLink link d = ({ d with opened := o, alerts := l, crashed := x }, []) := by
  unfold openLink
  by_cases hd : d.spotifyInstalled
  · rw [if_pos hd]
    cases link with
    | string text =>
      cases h : urlOf text with
      | none => exact ⟨d.opened, d.alerts, true, by simp only [h]; rfl⟩
      | some _ => exact ⟨d.opened ++ [text], d.alerts, d.crashed, by simp only [h]; rfl⟩
    | _ => exact ⟨d.opened, d.alerts, true, rfl⟩
  · rw [if_neg hd]
    exact ⟨d.opened, _, d.crashed, rfl⟩

@[simp] theorem openLink_requests (link : Value) (d : Device) : (openLink link d).2 = [] := by
  obtain ⟨o, l, x, h⟩ := openLink_cases link d
  rw [h]

theorem openLink_keeps {link : Value}
    (hπ : ∀ (d : Device) (o : List String) (l : List Alert) (x : Bool),
      π { d with opened := o, alerts := l, crashed := x } = π d) : Keeps π (openLink link) := by
  intro d
  obtain ⟨o, l, x, h⟩ := openLink_cases link d
  rw [h]
  exact hπ d o l x

theorem checkPlaylist_requests (coll : CollectionName) (doc : Doc) (d : Device) :
    (checkPlaylist coll doc d).2 = (found? coll d.sharedUserInfo.email doc).toList := by
  rw [checkPlaylist, andThen]
  split
  · exact markFound_requests coll doc d
  · rw [markFound_requests, openLink_requests, List.append_nil]

theorem checkPlaylist_keeps {coll : CollectionName} {doc : Doc}
    (hπ : ∀ (d : Device) (o : List String) (l : List Alert) (x : Bool),
      π { d with opened := o, alerts := l, crashed := x } = π d) :
    Keeps π (checkPlaylist coll doc) :=
  Keeps.andThen (fun d => by rw [markFound_device]) (openLink_keeps hπ)

/-- **What the handler of a tap issues**: for playlists of the result that lack the
user's email, a write that adds it. -/
theorem checkPlaylists_requests (coll : CollectionName) (docs : List Doc) (d : Device) :
    ((checkPlaylistsReply coll (.ok docs) d).2).Sublist
      (docs.filterMap (found? coll d.sharedUserInfo.email)) :=
  forEach_requests (π := fun d => d.sharedUserInfo.email)
    (fun _ => checkPlaylist_keeps (fun _ _ _ _ => rfl))
    (fun doc d hd => by rw [checkPlaylist_requests, hd]) docs d rfl

theorem checkPlaylists_requests_of_live {coll : CollectionName} {docs : List Doc} {d : Device}
    (live : (checkPlaylistsReply coll (.ok docs) d).1.crashed = false) :
    (checkPlaylistsReply coll (.ok docs) d).2 = docs.filterMap (found? coll d.sharedUserInfo.email) :=
  forEach_requests_of_live (π := fun d => d.sharedUserInfo.email)
    (fun _ => checkPlaylist_keeps (fun _ _ _ _ => rfl))
    (fun doc d hd => by rw [checkPlaylist_requests, hd]) docs d rfl live

theorem checkPlaylistsReply_keeps {coll : CollectionName} {reply : Except String (List Doc)}
    (hπ : ∀ (d : Device) (o : List String) (l : List Alert) (x : Bool),
      π { d with opened := o, alerts := l, crashed := x } = π d) :
    Keeps π (checkPlaylistsReply coll reply) :=
  Keeps.orAlert (fun d l => hπ d d.opened l d.crashed)
    (fun _ _ => Keeps.forEach (fun _ _ => checkPlaylist_keeps hπ))

theorem openLink_opened (link : Value) :
    Appends (fun d => d.opened) (fun x => link = .string x) (openLink link) := by
  intro d
  unfold openLink
  by_cases hd : d.spotifyInstalled
  · rw [if_pos hd]
    cases link with
    | string text =>
      cases h : urlOf text with
      | none => exact ⟨[], by simp only [h]; exact (List.append_nil _).symm, nofun⟩
      | some _ =>
        refine ⟨[text], by simp only [h]; rfl, fun x hx => ?_⟩
        rw [List.mem_singleton.mp hx]
    | _ => exact ⟨[], (List.append_nil _).symm, nofun⟩
  · rw [if_neg hd]
    exact ⟨[], (List.append_nil _).symm, nofun⟩

theorem checkPlaylists_opened (coll : CollectionName) (reply : Except String (List Doc)) :
    Appends (fun d => d.opened)
      (fun x => ∃ docs, reply = .ok docs ∧ ∃ doc ∈ docs, linkOf doc.data = .string x)
      (checkPlaylistsReply coll reply) := by
  refine Appends.orAlert (fun _ _ => rfl) (fun docs hdocs => Appends.forEach (fun doc hdoc => ?_))
  refine Appends.andThen (Appends.of_keeps (fun d => by rw [markFound_device])) ?_
  exact (openLink_opened (linkOf doc.data)).mono (fun x hx => ⟨docs, hdocs, doc, hdoc, hx⟩)

/-! ### Pins -/

/-- The handler of an annotation's query looks up the authors of the playlists it finds. -/
theorem viewForPlaylist_requests (pin : ℕ) (reply : Except String (List Doc)) (d : Device) :
    ∀ r ∈ (viewForPlaylistReply pin reply d).2, ∃ docs, reply = .ok docs ∧ ∃ doc ∈ docs, ∃ email,
      getString doc.data .email = some email ∧ r = .viewForUserInfo pin email := by
  have hissues : Issues (fun _ => ()) () (fun r => ∃ docs, reply = .ok docs ∧ ∃ doc ∈ docs,
      ∃ email, getString doc.data .email = some email ∧ r = .viewForUserInfo pin email)
      (viewForPlaylistReply pin reply) := by
    refine Issues.orAlert (fun docs hdocs => Issues.forEach (fun _ _ _ => rfl) (fun doc hdoc => ?_))
    cases h : getString doc.data .email with
    | none => exact Issues.skip
    | some email => exact Issues.issue ⟨docs, hdocs, doc, hdoc, email, h, rfl⟩
  exact hissues d rfl

theorem showPicture_keeps (P : Platform) (pin : ℕ) (url : String)
    (hπ : ∀ (d : Device) (l : List (ℕ × String)) (x : Bool),
      π { d with pinImages := l, crashed := x } = π d) : Keeps π (showPicture P pin url) := by
  intro d
  unfold showPicture
  cases urlOf url with
  | none => exact hπ d d.pinImages true
  | some _ =>
    cases P.contents url with
    | unavailable => rfl
    | noImage => exact hπ d d.pinImages true
    | image => exact hπ d (d.pinImages ++ [(pin, url)]) d.crashed

@[simp] theorem showPicture_requests (P : Platform) (pin : ℕ) (url : String) (d : Device) :
    (showPicture P pin url d).2 = [] := by
  unfold showPicture
  cases urlOf url with
  | none => rfl
  | some _ => cases P.contents url <;> rfl

theorem showPicture_pinImages (P : Platform) (pin : ℕ) (url : String) :
    Appends (fun d => d.pinImages) (fun x => x = (pin, url)) (showPicture P pin url) := by
  unfold showPicture
  cases urlOf url with
  | none => exact Appends.of_keeps (fun _ => rfl)
  | some _ =>
    cases P.contents url with
    | unavailable => exact Appends.of_keeps Keeps.skip
    | noImage => exact Appends.of_keeps (fun _ => rfl)
    | image => exact fun d => ⟨[(pin, url)], rfl, fun x hx => List.mem_singleton.mp hx⟩

/-- The pictures that a pin is given are those of the users that are found. -/
theorem viewForUserInfo_pinImages (P : Platform) (pin : ℕ) (reply : Except String (List Doc)) :
    Appends (fun d => d.pinImages)
      (fun x => ∃ docs, reply = .ok docs ∧ ∃ doc ∈ docs,
        getString doc.data .profilePicURL = some x.2)
      (viewForUserInfoReply P pin reply) := by
  refine Appends.orAlert (fun _ _ => rfl) (fun docs hdocs => Appends.forEach (fun doc hdoc => ?_))
  cases h : getString doc.data .profilePicURL with
  | none => exact Appends.of_keeps Keeps.skip
  | some url =>
    exact (showPicture_pinImages P pin url).mono (fun x hx => by
      rw [hx]
      exact ⟨docs, hdocs, doc, hdoc, h⟩)

theorem viewForUserInfo_opened (P : Platform) (pin : ℕ) (reply : Except String (List Doc)) :
    Keeps (fun d => d.opened) (viewForUserInfoReply P pin reply) := by
  refine .orAlert (fun _ _ => rfl) (fun docs _ => .forEach (fun doc _ => ?_))
  cases getString doc.data .profilePicURL with
  | none => exact .skip
  | some url => exact showPicture_keeps P pin url (fun _ _ _ => rfl)

theorem viewForUserInfo_requests (P : Platform) (pin : ℕ) (reply : Except String (List Doc))
    (d : Device) : (viewForUserInfoReply P pin reply d).2 = [] := by
  have hissues : Issues (fun _ => ()) () (fun _ => False) (viewForUserInfoReply P pin reply) := by
    refine .orAlert (fun docs _ => .forEach (fun _ _ _ => rfl) (fun doc _ => ?_))
    cases getString doc.data .profilePicURL with
    | none => exact .skip
    | some url =>
      intro d _ r hr
      rw [showPicture_requests] at hr
      cases hr
  exact List.eq_nil_iff_forall_not_mem.mpr (hissues d rfl)

/-- The annotations that are put on the map are those of the playlists that are found. -/
theorem addStaticAnnotations_annotations (map : VC) (reply : Except String (List Doc)) :
    Appends (fun d => d.annotations map)
      (fun a => ∃ docs, reply = .ok docs ∧ ∃ doc ∈ docs, annotationOf doc.data = some a)
      (addStaticAnnotationsReply map reply) := by
  refine Appends.orAlert (fun _ _ => rfl) (fun docs hdocs => Appends.forEach (fun doc hdoc => ?_))
  cases h : annotationOf doc.data with
  | none => exact Appends.of_keeps Keeps.skip
  | some a =>
    intro d
    refine ⟨[a], Function.update_self .., fun x hx => ?_⟩
    rw [List.mem_singleton.mp hx]
    exact ⟨docs, hdocs, doc, hdoc, h⟩

theorem addUserAnnotations_annotations (P : Platform) (map : VC) (now : ℤ)
    (reply : Except String (List Doc)) :
    Appends (fun d => d.annotations map)
      (fun a => ∃ docs, reply = .ok docs ∧ ∃ doc ∈ docs, annotationOf doc.data = some a)
      (addUserAnnotationsReply P map now reply) := by
  refine Appends.orAlert (fun _ _ => rfl) (fun docs hdocs => Appends.forEach (fun doc hdoc => ?_))
  have hnothing : ∀ {x : Action}, Keeps (fun d => d.annotations map) x →
      Appends (fun d => d.annotations map) (fun a => ∃ docs, reply = .ok docs ∧
        ∃ doc ∈ docs, annotationOf doc.data = some a) x := Appends.of_keeps
  unfold addUserAnnotation
  split
  · split
    · exact hnothing (Keeps.issue _)
    · split
      · next a ha =>
        intro d
        dsimp only
        split
        · split
          · refine ⟨[a], Function.update_self .., fun x hx => ?_⟩
            rw [List.mem_singleton.mp hx]
            exact ⟨docs, hdocs, doc, hdoc, ha⟩
          · exact ⟨[], (List.append_nil _).symm, nofun⟩
        · exact ⟨[], (List.append_nil _).symm, nofun⟩
      · exact hnothing Keeps.skip
  · exact hnothing Keeps.skip

end MapVC

/-! ### Clicks -/

namespace AddPlaylistVC

/-- The click finds both fields filled in and a link that the form takes. -/
def accepts (d : Device) (vc : VC) : Bool :=
  d.text vc .titleTextField ≠ "" && d.text vc .linkTextField ≠ "" &&
    acceptsLink (d.text vc .linkTextField)

/-- A click that is accepted adds the playlist and asks for the user's document. -/
theorem addPlaylistClicked_accepted {d : Device} (hd : d.crashed = false) {vc : VC}
    (h : accepts d vc = true) : addPlaylistClicked vc d =
      (d, [.addPlaylist (d.text vc .titleTextField) d.sharedUserInfo.username d.sharedUserInfo.email
          (d.chosen vc) (d.text vc .linkTextField),
        .createdUserInfo d.sharedUserInfo.email (d.sharedUserInfo.totalPlaylistsCreated + 1)]) := by
  simp only [accepts, Bool.and_eq_true, decide_eq_true_eq] at h
  rw [addPlaylistClicked]
  simp only [if_pos h.1, if_pos h.2]
  exact andThen_issue _ hd

theorem addPlaylistClicked_rejected {d : Device} {vc : VC} (h : accepts d vc = false) :
    ∃ l, addPlaylistClicked vc d = ({ d with alerts := l }, []) := by
  rw [addPlaylistClicked]
  by_cases htext : d.text vc .titleTextField ≠ "" ∧ d.text vc .linkTextField ≠ ""
  · have hlink : ¬ acceptsLink (d.text vc .linkTextField) = true := by
      intro hlink
      simp [accepts, htext, hlink] at h
    simp only [if_pos htext, if_neg hlink]
    exact ⟨_, rfl⟩
  · simp only [if_neg htext]
    exact ⟨d.alerts, rfl⟩

end AddPlaylistVC

end SpotiFriend

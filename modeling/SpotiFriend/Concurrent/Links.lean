import SpotiFriend.Async.Jobs
import SpotiFriend.Async.Run
import SpotiFriend.Spec.Actions
import SpotiFriend.Spec.Documents
import SpotiFriend.Text.UriText

/-!
# The link of a playlist

`addPlaylistClicked` takes every text that contains `https://open.spotify.com`, and a tap
on the playlist hands that text to `URL(string:)!` on the device of whoever taps it.
`SpotifyLink` is the grammar of the texts that are URLs of Spotify.

Main results, for all that the app can do, in any order:

* `step_shown`: what the answer to a tap's query shows has been stored;
* `step_linked`: the link of a playlist is never changed, only lost;
* `linkOpens_iff`: a link that the form takes can be opened by everybody, as a URL of
  Spotify, if and only if it is a `SpotifyLink`;
* `linkOpens_not`: a text that is no URL, and a URL that leads elsewhere.
-/

namespace SpotiFriend

open Text Async MapVC

/-- The scheme is `https` and the host `open.spotify.com`, in any case. -/
def OfSpotify (r : Uri.Reference) : Prop :=
  r.scheme.map (List.map Char.toLower) = some "https".toList ∧
    r.authority.map (fun a => a.host.map Char.toLower) = some "open.spotify.com".toList

instance (r : Uri.Reference) : Decidable (OfSpotify r) := inferInstanceAs (Decidable (_ ∧ _))

/-- `https://open.spotify.com`, possibly with user information before the host and a port
behind it, then a path, a query and a fragment, all in the characters of the grammar. -/
def SpotifyLink (link : String) : Prop :=
  ∃ r : Uri.Reference, r.WellFormed ∧ OfSpotify r ∧ r.text = link.toList

/-- The round of the loop in `checkUserPlaylists` opens one URL, of Spotify. -/
def OpensSpotify (doc : Doc) (d : Device) : Prop :=
  (checkPlaylist .userPlaylists doc d).1.crashed = false ∧
    ∃ text r, (checkPlaylist .userPlaylists doc d).1.opened = d.opened ++ [text] ∧
      Uri.parse text.toList = some r ∧ OfSpotify r

def shown : Job → List Doc
  | ⟨_, .checkPlaylists .userPlaylists _, some (.ok docs)⟩ => docs
  | _ => []

/-- Wherever the link is stored, every later tap on its playlist opens a URL of Spotify:
the new document is added at `s₁`, and at `s₃` the query of a tap has been answered. -/
def LinkOpens (P : Platform) (link : String) : Prop :=
  ∀ (s₀ s₁ s₂ s₃ : State) (ls₁ ls₂ : List Label) (i : ℕ) (m : ℤ) (c : ℕ)
    (title author email : String) (p : Coordinate), s₀.jobs = [] →
    Run (app P) (fun _ _ => True) s₀ ls₁ s₁ →
    s₁.jobs[i]? = some ⟨c, .addPlaylist title author email p link, none⟩ →
    step (app P) s₁ (.effect i m) = some s₂ → Run (app P) (fun _ _ => True) s₂ ls₂ s₃ →
    ∀ j ∈ s₃.jobs, ∀ doc ∈ shown j, doc.id = (s₁.store.firestore .userPlaylists).next →
      ∀ d : Device, d.crashed = false → d.spotifyInstalled = true → OpensSpotify doc d

variable {P : Platform} {s s₀ s₁ s₂ s₃ s' : State} {ℓ : Label} {link : String} {id : ℕ}

/-! ### What a tap is shown -/

theorem shown_issue (c : ℕ) (r : Request) : shown (Job.issue c r) = [] := by
  cases r with
  | checkPlaylists coll p => cases coll <;> rfl
  | _ => rfl

theorem shown_error (j : Job) (err : String) : shown (j.answer (.error err)) = [] := by
  obtain ⟨c, r, reply⟩ := j
  cases r with
  | checkPlaylists coll p => cases coll <;> rfl
  | _ => rfl

theorem shown_exec {j : Job} {m : ℤ} {b : Backend} {doc : Doc}
    (h : doc ∈ shown (j.answer (j.request.operation.exec P m b).2)) :
    b.doc? .userPlaylists doc.id = some doc.data := by
  obtain ⟨c, r, reply⟩ := j
  cases r with
  | checkPlaylists coll p =>
    cases coll with
    | userPlaylists => exact (Backend.mem_getDocuments (q := .atCoordinate _ p) |>.mp h).1
    | masterPlaylists => cases h
    | userInfo => cases h
  | _ => cases h

/-- **What is shown has been stored**: after a move, the answers to the queries of taps show
what they showed before, or a document as it is stored. -/
theorem step_shown (move : Step (app P) s ℓ s') : ∀ j ∈ s'.jobs, ∀ doc ∈ shown j,
    (∃ j ∈ s.jobs, doc ∈ shown j) ∨ s.store.doc? .userPlaylists doc.id = some doc.data := by
  refine move.jobs (φ := fun _ j => ∀ doc ∈ shown j,
    (∃ j ∈ s.jobs, doc ∈ shown j) ∨ s.store.doc? .userPlaylists doc.id = some doc.data) ?_ ?_ ?_ ?_ ?_
  · exact fun j hj doc hdoc => Or.inl ⟨j, hj, hdoc⟩
  · intro c e _ _ r _ doc hdoc
    rw [shown_issue] at hdoc
    cases hdoc
  · intro js₁ j js₂ m _ split _
    exact ⟨fun doc hdoc => Or.inr (shown_exec hdoc),
      fun j' hj' doc hdoc => Or.inl ⟨j', (rest_sublist split).subset hj', hdoc⟩⟩
  · intro js₁ j js₂ err _ _ _ doc hdoc
    rw [shown_error] at hdoc
    cases hdoc
  · intro js₁ j js₂ m a _ _ _ _ r _ doc hdoc
    rw [shown_issue] at hdoc
    cases hdoc

/-! ### A stored link stays -/

def LinkOrNone (link : String) (v : Option Value) : Prop := v = none ∨ v = some (.string link)

def ShownUsed (s : State) : Prop :=
  ∀ j ∈ s.jobs, ∀ doc ∈ shown j, doc.id < (s.store.firestore .userPlaylists).next

/-- The playlist `id` has the link or none, where it is stored and where it is shown. -/
structure Linked (id : ℕ) (link : String) (s : State) : Prop where
  used : id < (s.store.firestore .userPlaylists).next
  stored : LinkOrNone link (s.store.field .userPlaylists id .spotifyLink)
  shows : ∀ j ∈ s.jobs, ∀ doc ∈ shown j, doc.id = id → LinkOrNone link (doc.data .spotifyLink)

theorem Step.next_le (move : Step (app P) s ℓ s') (coll : CollectionName) :
    (s.store.firestore coll).next ≤ (s'.store.firestore coll).next := by
  cases move with
  | @effect js₁ js₂ j m split waiting => exact next_exec j.request.operation P m s.store coll
  | event | fail | deliver => exact Nat.le_refl _

theorem step_shownUsed (h : ShownUsed s) (move : Step (app P) s ℓ s') : ShownUsed s' := by
  intro j hj doc hdoc
  refine Nat.lt_of_lt_of_le ?_ (Step.next_le move .userPlaylists)
  rcases step_shown move j hj doc hdoc with ⟨j, hj, hdoc⟩ | hstored
  · exact h j hj doc hdoc
  · exact Store.Collection.lt_next hstored

theorem setData_spotifyLink {r : Request} {coll : CollectionName} {data : Dict}
    (h : r.operation = .setData coll id data) (m : ℤ) : data.fields m .spotifyLink = none := by
  cases r <;> cases h <;> simp

/-- A call leaves the link of a document with a used ID, or deletes the document. -/
theorem exec_linkOrNone (r : Request) (m : ℤ) {b : Backend}
    (hused : id < (b.firestore .userPlaylists).next)
    (h : LinkOrNone link (b.field .userPlaylists id .spotifyLink)) :
    LinkOrNone link ((r.operation.exec P m b).1.field .userPlaylists id .spotifyLink) := by
  rcases exec_firestore r.operation P m b with
    ⟨coll, id', data, ho⟩ | ⟨coll, data, ho⟩ | ⟨coll, id', ho⟩ | hsame
  · rw [ho, field_setData_of_absent (setData_spotifyLink ho m)]
    exact h
  · rw [ho, Backend.field, doc?_addDocument, if_neg]
    · exact h
    · rintro ⟨rfl, rfl⟩
      exact Nat.lt_irrefl _ hused
  · rw [ho, Backend.field, doc?_deleteDocument]
    split
    · exact Or.inl rfl
    · exact h
  · rw [Backend.field, Backend.doc?, hsame]
    exact h

/-- **One move** leaves the link of a playlist, or the playlist has none any more. -/
theorem step_linked (h : Linked id link s) (move : Step (app P) s ℓ s') : Linked id link s' := by
  refine ⟨Nat.lt_of_lt_of_le h.used (Step.next_le move .userPlaylists), ?_, ?_⟩
  · cases move with
    | @effect js₁ js₂ j m split waiting => exact exec_linkOrNone j.request m h.used h.stored
    | event | fail | deliver => exact h.stored
  · rintro j hj doc hdoc rfl
    rcases step_shown move j hj doc hdoc with ⟨j, hj, hdoc⟩ | hstored
    · exact h.shows j hj doc hdoc rfl
    · have hlink := h.stored
      rw [Backend.field, hstored] at hlink
      exact hlink

theorem linked_of_added {i : ℕ} {m : ℤ} {c : ℕ} {title author email : String} {p : Coordinate}
    (h : ShownUsed s) (hj : s.jobs[i]? = some ⟨c, .addPlaylist title author email p link, none⟩)
    (move : Step (app P) s (.effect i m) s') :
    Linked (s.store.firestore .userPlaylists).next link s' := by
  cases move with
  | @effect js₁ js₂ j m split waiting =>
    rw [getElem?_split split] at hj
    obtain rfl := Option.some.inj hj
    refine ⟨?_, Or.inr ?_, ?_⟩
    · rw [State.settle_store, app_exec, Operation.exec, Backend.setCollection_firestore,
        Function.update_self]
      exact Nat.lt_succ_self _
    · rw [State.settle_store, app_exec, Backend.field, doc?_addDocument, if_pos ⟨rfl, rfl⟩]
      rfl
    · -- what has been shown has another ID
      intro j' hj' doc hdoc hid
      have hused : doc.id < (s.store.firestore .userPlaylists).next := by
        rcases step_shown (.effect _ m split waiting) j' hj' doc hdoc with ⟨j, hj, hdoc⟩ | hstored
        · exact h j hj doc hdoc
        · exact Store.Collection.lt_next hstored
      rw [hid] at hused
      exact absurd hused (Nat.lt_irrefl _)

/-! ### Opening the link -/

theorem defaultLink_ofSpotify : ∃ r, Uri.parse defaultLink.toList = some r ∧ OfSpotify r := by
  have h : (Uri.parse defaultLink.toList).any (fun r => OfSpotify r) = true := by decide
  obtain ⟨r, hr, hspotify⟩ := (Option.any_eq_true ..).mp h
  exact ⟨r, hr, of_decide_eq_true hspotify⟩

theorem urlOf_ofSpotify {text : String} {r : Uri.Reference} (hr : Uri.parse text.toList = some r)
    (hspotify : OfSpotify r) : urlOf text = some r := by
  rw [urlOf, if_neg, hr]
  rintro rfl
  cases hr
  exact absurd hspotify.1 (by decide)

/-- What the round of the loop does with a link that is a text. -/
theorem checkPlaylist_link {doc : Doc} {d : Device} {text : String} (hd : d.crashed = false)
    (hinstalled : d.spotifyInstalled = true) (htext : linkOf doc.data = .string text) :
    (checkPlaylist .userPlaylists doc d).1 = match urlOf text with
      | some _ => { d with opened := d.opened ++ [text] }
      | none => { d with crashed := true } := by
  rw [checkPlaylist, Action.andThen_of_live (by rw [markFound_device]; exact hd), markFound_device,
    htext, openLink, if_pos hinstalled]
  cases urlOf text <;> rfl

theorem opensSpotify_of_parse {doc : Doc} {d : Device} {text : String} {r : Uri.Reference}
    (hd : d.crashed = false) (hinstalled : d.spotifyInstalled = true)
    (htext : linkOf doc.data = .string text) (hr : Uri.parse text.toList = some r)
    (hspotify : OfSpotify r) : OpensSpotify doc d := by
  have hround := checkPlaylist_link hd hinstalled htext
  rw [urlOf_ofSpotify hr hspotify] at hround
  exact ⟨by rw [hround]; exact hd, text, r, by rw [hround], hr, hspotify⟩

theorem parse_of_opensSpotify {doc : Doc} {d : Device} {text : String} (hd : d.crashed = false)
    (hinstalled : d.spotifyInstalled = true) (htext : linkOf doc.data = .string text)
    (h : OpensSpotify doc d) : ∃ r, Uri.parse text.toList = some r ∧ OfSpotify r := by
  obtain ⟨hlive, text', r, hopened, hr, hspotify⟩ := h
  rw [checkPlaylist_link hd hinstalled htext] at hlive hopened
  cases hurl : urlOf text with
  | none =>
    rw [hurl] at hlive
    cases hlive
  | some r' =>
    rw [hurl] at hopened
    obtain ⟨rfl⟩ := List.singleton_inj.mp (List.append_cancel_left hopened)
    exact ⟨r, hr, hspotify⟩

/-- **The grammar of the URLs of Spotify.** -/
theorem spotifyLink_iff : SpotifyLink link ↔ ∃ r, Uri.parse link.toList = some r ∧ OfSpotify r := by
  constructor
  · rintro ⟨r, hwell, hspotify, htext⟩
    exact ⟨r, by rw [← htext, Uri.parse_text hwell], hspotify⟩
  · rintro ⟨r, hr, hspotify⟩
    obtain ⟨scheme, hscheme, -⟩ := Option.map_eq_some_iff.mp hspotify.1
    obtain ⟨a, ha, hhost⟩ := Option.map_eq_some_iff.mp hspotify.2
    refine ⟨r, Uri.wellFormed_of_parse hr hscheme ha (fun hbracket => ?_), hspotify,
      Uri.text_of_parse hr⟩
    obtain ⟨rest, hrest⟩ := List.head?_eq_some_iff.mp hbracket
    rw [hrest] at hhost
    exact absurd (List.cons.inj hhost).1 (by decide)

/-! ### From the form to the tap -/

def atForm (link : String) : State where
  store := .of [] [] [] []
  locals _ := { Device.launched with
    text := fun _ field => match field with
      | .titleTextField => "Road"
      | .linkTextField => link
      | _ => "" }
  jobs := []

/-- The playlist that the form makes at time `0`. -/
def firstPlaylist (link : String) : Doc :=
  ⟨0, Dict.fields (Request.playlistDict "Road" "" "" ⟨.fin 0, .fin 0⟩ link) 0⟩

def clicked (link : String) : State :=
  (atForm link).proceed 0 [] ((atForm link).locals 0,
    [.addPlaylist "Road" "" "" ⟨.fin 0, .fin 0⟩ link, .createdUserInfo "" 1])

theorem step_clicked (haccepted : AddPlaylistVC.acceptsLink link = true) :
    step (app P) (atForm link) (.event 0 (.addPlaylistClicked 0)) = some (clicked link) := by
  have hnonempty : link ≠ "" := by
    rintro rfl
    exact absurd haccepted (by decide)
  have haccepts : AddPlaylistVC.accepts ((atForm link).locals 0) 0 = true := by
    simp [AddPlaylistVC.accepts, atForm, haccepted, hnonempty]
  have hmove : Step (app P) (atForm link) (.event 0 (Event.addPlaylistClicked 0)) _ :=
    .event 0 (Event.addPlaylistClicked 0) rfl
  rw [app_start, start, AddPlaylistVC.addPlaylistClicked_accepted rfl haccepts] at hmove
  exact step_iff (app P) |>.mpr hmove

/-- A text that the form takes and that everybody can open is a URL of Spotify: after the
click the playlist is added, its pin is tapped, and the tap's query is answered. -/
theorem parse_of_linkOpens (haccepted : AddPlaylistVC.acceptsLink link = true)
    (h : LinkOpens P link) : ∃ r, Uri.parse link.toList = some r ∧ OfSpotify r := by
  obtain ⟨s₂, s₃, hadd, htap, j, hj, hshown⟩ : ∃ s₂ s₃,
      step (app P) (clicked link) (.effect 0 0) = some s₂ ∧
      run (app P) (fun _ _ => true) s₂ [.event 0 (.calloutTapped ⟨.fin 0, .fin 0⟩), .effect 3 0] =
        some s₃ ∧ ∃ j, s₃.jobs[3]? = some j ∧ firstPlaylist link ∈ shown j := by
    refine ⟨_, _, rfl, rfl, _, rfl, ?_⟩
    refine Backend.mem_getDocuments.mpr ⟨rfl, Query.holds_atCoordinate.mpr ⟨rfl, rfl⟩⟩
  have hopens : OpensSpotify (firstPlaylist link) .launched :=
    h (atForm link) (clicked link) s₂ s₃ [.event 0 (.addPlaylistClicked 0)] _ 0 0 0 "Road" "" ""
      ⟨.fin 0, .fin 0⟩ rfl (.cons trivial (step_clicked haccepted) (.nil _)) rfl hadd
      ((Run.of_run htap).mono (fun _ _ _ => trivial)) j (List.mem_of_getElem? hj) _ hshown rfl
      .launched rfl rfl
  exact parse_of_opensSpotify rfl rfl (show _ = Value.string link from rfl) hopens

/-- **Which links can be opened.**  Of the links that the form takes, those that everybody
who taps the playlist can open as a URL of Spotify are exactly the `SpotifyLink`s. -/
theorem linkOpens_iff (haccepted : AddPlaylistVC.acceptsLink link = true) :
    LinkOpens P link ↔ SpotifyLink link := by
  rw [spotifyLink_iff]
  constructor
  · exact parse_of_linkOpens haccepted
  · rintro ⟨r, hr, hspotify⟩ s₀ s₁ s₂ s₃ ls₁ ls₂ i m c title author email p hs₀ h₁ hadding hadd h₂
    have hused : ShownUsed s₁ :=
      h₁.invariant (fun _ _ _ hI _ move => step_shownUsed hI move) (by rw [ShownUsed, hs₀]; exact nofun)
    have hlinked : Linked (s₁.store.firestore .userPlaylists).next link s₃ :=
      h₂.invariant (fun _ _ _ hI _ move => step_linked hI move)
        (linked_of_added hused hadding (step_iff (app P) |>.mp hadd))
    intro j hj doc hdoc hid d hd hinstalled
    rcases hlinked.shows j hj doc hdoc hid with hnone | hlink
    · -- the document was deleted and made anew by a write: the code falls back to a link of its own
      obtain ⟨r', hr', hspotify'⟩ := defaultLink_ofSpotify
      exact opensSpotify_of_parse hd hinstalled (by rw [linkOf, hnone]; rfl) hr' hspotify'
    · exact opensSpotify_of_parse hd hinstalled (by rw [linkOf, hlink]; rfl) hr hspotify

theorem linkOpens_defaultLink : LinkOpens .sample defaultLink :=
  (linkOpens_iff (by decide)).mpr (spotifyLink_iff.mpr defaultLink_ofSpotify)

/-- **Links that the form takes and that do not open Spotify**: one is no URL, so that every
tap crashes the app, and one leads elsewhere. -/
theorem linkOpens_not :
    (AddPlaylistVC.acceptsLink "https://open.spotify.com/my list" = true ∧
      ¬ LinkOpens .sample "https://open.spotify.com/my list") ∧
    AddPlaylistVC.acceptsLink "https://example.org/?https://open.spotify.com" = true ∧
      ¬ LinkOpens .sample "https://example.org/?https://open.spotify.com" := by
  refine ⟨⟨by decide, fun h => ?_⟩, by decide, fun h => ?_⟩
  · obtain ⟨r, hr, -⟩ := parse_of_linkOpens (by decide) h
    have hnone : Uri.parse "https://open.spotify.com/my list".toList = none := by decide
    rw [hnone] at hr
    cases hr
  · obtain ⟨r, hr, hspotify⟩ := parse_of_linkOpens (by decide) h
    have hother : (Uri.parse "https://example.org/?https://open.spotify.com".toList).any
        (fun r => OfSpotify r) = false := by decide
    rw [hr] at hother
    exact of_decide_eq_false hother hspotify

end SpotiFriend

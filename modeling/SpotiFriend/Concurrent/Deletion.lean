import SpotiFriend.Async.Jobs
import SpotiFriend.Async.Run
import SpotiFriend.Spec.Crashes
import SpotiFriend.Spec.Documents

/-!
# Deleted documents

Every update is a merging write to an ID that an earlier query gave, and such a write
makes the document anew when it has been deleted since.  The invariant `WritesLive` says
that every write on its way has a document to go to.

Main results, for all that the app can do, in any order:

* `resume_updates`: a handler writes to the documents that `updates` reads off its result;
* `step_intact`: a move keeps `WritesLive`, and brings back no document, when no document
  is deleted under a write and no handler writes to a document that is gone;
* `deleted_of_run`: so a deleted document stays deleted, and every document keeps the
  fields that it is made with;
* `deleted_resurrected`: a playlist that expires under a tap comes back with one field.
-/

namespace SpotiFriend

open Async SpotiFriend.Action

def writesTo? (r : Request) : Option (CollectionName × ℕ) :=
  match r.operation with
  | .setData coll id _ => some (coll, id)
  | _ => none

/-- The playlists of a result that the loop of a tap comes to: it ends where a link crashes the
app. -/
def reached (spotifyInstalled : Bool) : List Doc → List Doc
  | [] => []
  | doc :: docs =>
    doc :: if spotifyInstalled && !canOpen (MapVC.linkOf doc.data) then []
      else reached spotifyInstalled docs

/-- The documents that the handler of the call is to update, as its result shows them: a tap those
that the user has not found, the edits of an account one that is alone. -/
def updates (d : Device) : (r : Request) → Except String r.Answer → List (CollectionName × ℕ)
  | .checkPlaylists coll _, .ok docs =>
    ((reached d.spotifyInstalled docs).filter (fun doc => (getStrings doc.data .hasFound).any
      (fun hasFound => !hasFound.contains d.sharedUserInfo.email))).map (fun doc => (coll, doc.id))
  | .foundUserInfo _, .ok docs | .pictureUserInfo _ _, .ok docs =>
    docs.map (fun doc => (.userInfo, doc.id))
  | .createdUserInfo _ _, .ok docs | .emailUserInfo _ _, .ok docs | .passwordUserInfo _ _, .ok docs
  | .usernameUserInfo _ _, .ok docs | .radiusUserInfo _ _, .ok docs =>
    if docs.length = 1 then docs.map (fun doc => (.userInfo, doc.id)) else []
  | _, _ => []

/-- No document is deleted while a write to it is on its way, and no result is delivered
that has a document to update which does not exist any more. -/
def intact (s : State) : Label → Bool
  | .effect i _ => s.jobs[i]?.all (fun j => match j.request.operation with
    | .deleteDocument coll id => s.jobs.all (fun j' => !waitsToWrite coll id j')
    | _ => true)
  | .deliver i _ => match s.jobs[i]? with
    | some ⟨c, r, some a⟩ => (updates (s.locals c) r a).all (fun p =>
      (s.store.doc? p.1 p.2).isSome)
    | _ => true
  | _ => true

def noFailure : Label → Bool
  | .fail _ _ => false
  | _ => true

def requiredFields : CollectionName → List Field
  | .masterPlaylists => []
  | .userPlaylists =>
    [.title, .author, .email, .latitude, .longitude, .spotifyLink, .date, .hasFound]
  | .userInfo => [.username, .email, .password]

def Complete (b : Backend) : Prop :=
  ∀ coll id f, b.doc? coll id = some f → ∀ k ∈ requiredFields coll, (f k).isSome = true

/-- The document has been there, and is not there any more. -/
def Backend.Deleted (b : Backend) (coll : CollectionName) (id : ℕ) : Prop :=
  id < (b.firestore coll).next ∧ b.doc? coll id = none

def WritesLive (b : Backend) (j : Job) : Prop :=
  ∀ coll id, waitsToWrite coll id j = true → (b.doc? coll id).isSome = true

/-! ### What the handlers write to -/

variable {P : Platform} {d : Device} {coll : CollectionName}

/-- **The loop of a tap** adds the user to the playlists that it comes to. -/
theorem checkPlaylists_reached (docs : List Doc) : ∀ {d : Device}, d.crashed = false →
    (forEach (MapVC.checkPlaylist coll) docs d).2 =
      (reached d.spotifyInstalled docs).filterMap (MapVC.found? coll d.sharedUserInfo.email) := by
  induction docs with
  | nil => exact fun _ => rfl
  | cons doc docs ih =>
    intro d live
    have hcrashed := checkPlaylist_crashed coll doc d
    rw [live, Bool.false_or] at hcrashed
    have hrequests := MapVC.checkPlaylist_requests coll doc d
    rw [forEach, andThen, reached, hcrashed]
    by_cases hlink : (d.spotifyInstalled && !canOpen (MapVC.linkOf doc.data)) = true
    · rw [if_pos hlink, if_pos hlink, hrequests]
      cases hfound : MapVC.found? coll d.sharedUserInfo.email doc with
      | none => rw [List.filterMap_cons_none hfound]; rfl
      | some r => rw [List.filterMap_cons_some hfound]; rfl
    · have hspotify : (MapVC.checkPlaylist coll doc d).1.spotifyInstalled = d.spotifyInstalled :=
        MapVC.checkPlaylist_keeps (π := Device.spotifyInstalled) (fun _ _ _ _ => rfl) d
      have hemail : (MapVC.checkPlaylist coll doc d).1.sharedUserInfo = d.sharedUserInfo :=
        MapVC.checkPlaylist_keeps (π := Device.sharedUserInfo) (fun _ _ _ _ => rfl) d
      rw [if_neg hlink, if_neg hlink, ih (hcrashed.trans (Bool.eq_false_iff.mpr hlink)), hspotify,
        hemail,
        hrequests]
      cases hfound : MapVC.found? coll d.sharedUserInfo.email doc with
      | none => rw [List.filterMap_cons_none hfound]; rfl
      | some r => rw [List.filterMap_cons_some hfound]; rfl

/-- The writes of a tap go to the playlists that lack the user's email. -/
theorem filterMap_found? (email : String) (docs : List Doc) :
    (docs.filterMap (MapVC.found? coll email)).filterMap writesTo? =
      (docs.filter (fun doc => (getStrings doc.data .hasFound).any
        (fun hasFound => !hasFound.contains email))).map (fun doc => (coll, doc.id)) := by
  induction docs with
  | nil => rfl
  | cons doc docs ih =>
    cases hfound : getStrings doc.data .hasFound with
    | none =>
      rw [List.filterMap_cons_none (by rw [MapVC.found?, hfound]),
        List.filter_cons_of_neg (by simp [hfound]), ih]
    | some hasFound =>
      by_cases hmem : hasFound.contains email = true
      · rw [List.filterMap_cons_none (by simp only [MapVC.found?, hfound, if_pos hmem]),
          List.filter_cons_of_neg (by rw [hfound, Option.any_some, hmem]; exact Bool.false_ne_true),
          ih]
      · rw [List.filterMap_cons_some (by simp only [MapVC.found?, hfound, if_neg hmem]; rfl),
          List.filter_cons_of_pos
            (by rw [hfound, Option.any_some, Bool.eq_false_iff.mpr hmem]; rfl),
          List.map_cons, ← ih]
        rfl

theorem filterMap_map_writes {write : Doc → Request}
    (hwrite : ∀ doc, writesTo? (write doc) = some (.userInfo, doc.id)) (docs : List Doc) :
    (docs.map write).filterMap writesTo? = docs.map (fun doc => (.userInfo, doc.id)) := by
  rw [List.filterMap_map, ← List.filterMap_eq_map]
  exact congrArg (fun f => List.filterMap f docs) (funext hwrite)

theorem updateOnly_updates {write : Doc → Device → Request}
    (hwrite : ∀ doc d, writesTo? (write doc d) = some (.userInfo, doc.id)) (docs : List Doc)
    (live : d.crashed = false) :
    (EditAccountVC.updateOnly (fun doc d => issue (write doc d) d) docs d).2.filterMap writesTo? =
      if docs.length = 1 then docs.map (fun doc => (.userInfo, doc.id)) else [] := by
  match docs with
  | [] => rfl
  | [doc] =>
    show (andThen (fun d => issue (write doc d) d) skip d).2.filterMap writesTo? = _
    rw [andThen_of_live (by exact live)]
    exact filterMap_map_writes (fun doc => hwrite doc d) [doc]
  | doc :: doc' :: docs => rfl

/-- **Which documents a handler writes to.** -/
theorem resume_updates (P : Platform) (r : Request) (m : ℤ) (a : Except String r.Answer)
    (live : d.crashed = false) : (resume P r m a d).2.filterMap writesTo? = updates d r a := by
  -- a handler whose calls are no writes
  have hnone : (∀ r', Leads r r' → writesTo? r' = none) →
      (resume P r m a d).2.filterMap writesTo? = [] :=
    fun h => List.filterMap_eq_nil_iff.mpr (fun r' hr' => h r' (resume_leads P r m a d r' hr'))
  cases a with
  | error err => cases r <;> rfl
  | ok x =>
    cases r with
    | checkPlaylists coll p =>
      refine (congrArg (List.filterMap writesTo?) (checkPlaylists_reached x live)).trans ?_
      exact filterMap_found? d.sharedUserInfo.email _
    | foundUserInfo email =>
      have happly := MapVC.foundUserInfoReply_apply live x
      show (MapVC.foundUserInfoReply (.ok x) d).2.filterMap writesTo? = _
      rw [happly]
      exact filterMap_map_writes (fun _ => rfl) x
    | pictureUserInfo email imgURL =>
      show (forEach (fun doc : Doc => issue (.storePicture doc.id imgURL)) x d).2.filterMap writesTo? =
        _
      rw [forEach_issue, live, if_neg Bool.false_ne_true]
      exact filterMap_map_writes (fun _ => rfl) x
    | createdUserInfo email n =>
      show (AddPlaylistVC.createdUserInfoReply n (.ok x) d).2.filterMap writesTo? =
        if x.length = 1 then _ else _
      rw [AddPlaylistVC.createdUserInfoReply]
      split
      · rw [forEach_issue, live, if_neg Bool.false_ne_true]
        exact filterMap_map_writes (fun _ => rfl) x
      · rfl
    | emailUserInfo vc oldEmail => exact updateOnly_updates (fun _ _ => rfl) x live
    | passwordUserInfo vc email => exact updateOnly_updates (fun _ _ => rfl) x live
    | usernameUserInfo vc email => exact updateOnly_updates (fun _ _ => rfl) x live
    | radiusUserInfo vc email => exact updateOnly_updates (fun _ _ => rfl) x live
    | _ => exact hnone (fun r' h => by cases r' <;> first | rfl | simp_all [Leads])

theorem start_writesTo (e : Event) {d : Device} (live : d.crashed = false) :
    ∀ r ∈ (start e d).2, writesTo? r = none := by
  intro r hr
  have hopens := start_opens e live r hr
  cases r <;> first | rfl | cases hopens

/-! ### Writes, additions and deletions -/

variable {s s₀ s₁ s₂ s' : State} {ℓ : Label} {b b' : Backend} {j : Job} {id : ℕ}

theorem writesTo_iff {r : Request} :
    writesTo? r = some (coll, id) ↔ ∃ data, r.operation = .setData coll id data := by
  rw [writesTo?]
  split
  · next h =>
    rw [Option.some_inj, Prod.mk.injEq]
    constructor
    · rintro ⟨rfl, rfl⟩
      exact ⟨_, h⟩
    · rintro ⟨data, hd⟩
      rw [h] at hd
      cases hd
      exact ⟨rfl, rfl⟩
  · next h => exact ⟨nofun, fun ⟨data, hd⟩ => absurd hd (h coll id data)⟩

theorem addDocument_complete {r : Request} {data : Dict} (h : r.operation = .addDocument coll data)
    (m : ℤ) : ∀ k ∈ requiredFields coll, (data.fields m k).isSome = true := by
  cases r with
  | addPlaylist title author email p link =>
    cases h
    intro k hk
    simp only [requiredFields, List.mem_cons, List.not_mem_nil, or_false] at hk
    rcases hk with rfl | rfl | rfl | rfl | rfl | rfl | rfl | rfl <;> rfl
  | addUserInfo username email password =>
    cases h
    intro k hk
    simp only [requiredFields, List.mem_cons, List.not_mem_nil, or_false] at hk
    rcases hk with rfl | rfl | rfl <;> rfl
  | _ => cases h

/-- What a call does to the documents: a document that it leaves there was there before,
with at least the same fields, or it is new and complete, or it is the one that is
written to; and it takes away none but the one that is deleted. -/
structure Harmless (b b' : Backend) : Prop where
  next : ∀ coll, (b.firestore coll).next ≤ (b'.firestore coll).next
  old : ∀ coll id f', b'.doc? coll id = some f' → (b.firestore coll).next ≤ id ∧
      (∀ k ∈ requiredFields coll, (f' k).isSome = true) ∨
    ∃ f, b.doc? coll id = some f ∧ ∀ k, (f k).isSome = true → (f' k).isSome = true

theorem Harmless.deleted (h : Harmless b b') (hd : b.Deleted coll id) : b'.Deleted coll id := by
  refine ⟨Nat.lt_of_lt_of_le hd.1 (h.next coll), ?_⟩
  cases hf' : b'.doc? coll id with
  | none => rfl
  | some f' =>
    rcases h.old coll id f' hf' with ⟨hnext, -⟩ | ⟨f, hf, -⟩
    · exact absurd hd.1 (Nat.not_lt.mpr hnext)
    · rw [hd.2] at hf
      cases hf

theorem Harmless.complete (h : Harmless b b') (hc : Complete b) : Complete b' := by
  intro coll id f' hf' k hk
  rcases h.old coll id f' hf' with ⟨-, hnew⟩ | ⟨f, hf, hsome⟩
  · exact hnew k hk
  · exact hsome k (hc coll id f hf k hk)

theorem Harmless.of_eq (h : b'.firestore = b.firestore) : Harmless b b' := by
  refine ⟨fun coll => by rw [h], fun coll id f' hf' => Or.inr ⟨f', ?_, fun _ hk => hk⟩⟩
  rw [Backend.doc?, ← h]
  exact hf'

theorem harmless_exec (m : ℤ) (hlive : ∀ coll id data, j.request.operation = .setData coll id data →
    (b.doc? coll id).isSome = true) : Harmless b (j.request.operation.exec P m b).1 := by
  refine ⟨next_exec _ P m b, fun coll' id' f' hf' => ?_⟩
  rcases exec_firestore j.request.operation P m b with
    ⟨coll, id, data, ho⟩ | ⟨coll, data, ho⟩ | ⟨coll, id, ho⟩ | hsame
  · obtain ⟨f, hf⟩ := Option.isSome_iff_exists.mp (hlive coll id data ho)
    rw [ho, doc?_setData] at hf'
    split at hf'
    · next hsame =>
      obtain ⟨rfl, rfl⟩ := hsame
      obtain rfl := Option.some.inj hf'
      refine Or.inr ⟨f, hf, fun k hk => ?_⟩
      rw [hf, Dict.merge_some, Option.isSome_or, hk, Bool.or_true]
    · exact Or.inr ⟨f', hf', fun _ hk => hk⟩
  · rw [ho, doc?_addDocument] at hf'
    split at hf'
    · next hnew =>
      obtain ⟨rfl, rfl⟩ := hnew
      obtain rfl := Option.some.inj hf'
      exact Or.inl ⟨Nat.le_refl _, addDocument_complete ho m⟩
    · exact Or.inr ⟨f', hf', fun _ hk => hk⟩
  · rw [ho, doc?_deleteDocument] at hf'
    split at hf'
    · cases hf'
    · exact Or.inr ⟨f', hf', fun _ hk => hk⟩
  · rw [Backend.doc?, hsame] at hf'
    exact Or.inr ⟨f', hf', fun _ hk => hk⟩

theorem isSome_exec (o : Operation) (m : ℤ) (hsome : (b.doc? coll id).isSome = true)
    (hdelete : o ≠ .deleteDocument coll id) : ((o.exec P m b).1.doc? coll id).isSome = true := by
  rcases exec_firestore o P m b with
    ⟨coll', id', data, rfl⟩ | ⟨coll', data, rfl⟩ | ⟨coll', id', rfl⟩ | hsame
  · rw [doc?_setData]
    split
    · rfl
    · exact hsome
  · rw [doc?_addDocument]
    split
    · rfl
    · exact hsome
  · rw [doc?_deleteDocument, if_neg]
    · exact hsome
    · rintro ⟨rfl, rfl⟩
      exact hdelete rfl
  · rw [Backend.doc?, hsame]
    exact hsome

/-! ### Runs -/

/-- **One move** in which nothing is deleted under a write brings back no document and
leaves all documents complete. -/
theorem step_intact (h : ∀ j ∈ s.jobs, WritesLive s.store j) (guard : intact s ℓ = true)
    (move : Step (app P) s ℓ s') :
    (∀ j ∈ s'.jobs, WritesLive s'.store j) ∧ Harmless s.store s'.store := by
  constructor
  · refine move.jobs h ?_ ?_ ?_ ?_
    · rintro c e rfl live r hr coll id hwaits
      have htarget : writesTo? r = some (coll, id) :=
        writesTo_iff.mpr (waitsToWrite_iff.mp hwaits).2
      rw [start_writesTo e (by simpa using live) r hr] at htarget
      cases htarget
    · rintro js₁ j js₂ m rfl split waiting
      refine ⟨fun coll id hwaits => (by cases hwaits), fun j' hj' coll id hwaits => ?_⟩
      have hj' := (rest_sublist split).subset hj'
      refine isSome_exec _ m (h j' hj' coll id hwaits) (fun ho => ?_)
      simp only [intact, getElem?_split split, Option.all_some, ho, List.all_eq_true,
        Bool.not_eq_true'] at guard
      rw [guard j' hj'] at hwaits
      cases hwaits
    · exact fun js₁ j js₂ err _ _ _ coll id hwaits => (by cases hwaits)
    · rintro js₁ j js₂ m a rfl split answered live r hr coll id hwaits
      have htarget : writesTo? r = some (coll, id) :=
        writesTo_iff.mpr (waitsToWrite_iff.mp hwaits).2
      have hget := getElem?_split split
      rw [Job.eq_of_reply answered] at hget
      simp only [intact, hget, List.all_eq_true] at guard
      refine guard (coll, id) ?_
      rw [← resume_updates P j.request m a (by simpa using live)]
      exact List.mem_filterMap.mpr ⟨r, hr, htarget⟩
  · cases move with
    | @effect js₁ js₂ j m split waiting =>
      exact harmless_exec m (fun coll id data ho =>
        h j (mem_of_split split) coll id (waitsToWrite_iff.mpr ⟨waiting, data, ho⟩))
    | event | fail | deliver => exact .of_eq rfl

theorem run_intact {ls : List Label} (hs : ∀ j ∈ s.jobs, WritesLive s.store j)
    (h : Run (app P) (fun s ℓ => intact s ℓ) s ls s') :
    (∀ j ∈ s'.jobs, WritesLive s'.store j) ∧
    (∀ coll id, s.store.Deleted coll id → s'.store.Deleted coll id) ∧
    (Complete s.store → Complete s'.store) := by
  refine h.invariant (I := fun t => (∀ j ∈ t.jobs, WritesLive t.store j) ∧
    (∀ coll id, s.store.Deleted coll id → t.store.Deleted coll id) ∧
    (Complete s.store → Complete t.store)) ?_ ⟨hs, fun _ _ hd => hd, fun hc => hc⟩
  rintro t ℓ t' ⟨ht, hdeleted, hcomplete⟩ guard move
  obtain ⟨ht', hharmless⟩ := step_intact ht guard move
  exact ⟨ht', fun coll id hd => hharmless.deleted (hdeleted coll id hd),
    fun hc => hharmless.complete (hcomplete hc)⟩

/-- **No resurrected and no partial documents** when nothing is deleted under a write: a
document that is deleted at some point of a run does not exist at any later point, and
documents that are complete at the start are complete throughout. -/
theorem deleted_of_run {ls₁ ls₂ : List Label} (hs₀ : s₀.jobs = [])
    (h₁ : Run (app P) (fun s ℓ => intact s ℓ) s₀ ls₁ s₁)
    (h₂ : Run (app P) (fun s ℓ => intact s ℓ) s₁ ls₂ s₂) :
    (∀ coll id, s₁.store.Deleted coll id → s₂.store.doc? coll id = none) ∧
    (Complete s₀.store → Complete s₂.store) := by
  obtain ⟨hmid, -, hcomplete₁⟩ := run_intact (by rw [hs₀]; exact nofun) h₁
  obtain ⟨-, hdeleted, hcomplete₂⟩ := run_intact hmid h₂
  exact ⟨fun coll id hd => (hdeleted coll id hd).2, fun hc => hcomplete₂ (hcomplete₁ hc)⟩

/-! ### A resurrected playlist -/

/-- Two users at the map and a playlist of a third one, all complete. -/
def oldPlaylist : State where
  store := .of []
    [Dict.fields (Request.playlistDict "Road" "cleo" "cleo@mail.org" ⟨.fin 0, .fin 0⟩
      MapVC.defaultLink) 0]
    [Dict.fields (Request.userDict "ann" "ann@mail.org" "secret") 0,
      Dict.fields (Request.userDict "bob" "bob@mail.org" "hidden") 0]
    [⟨"ann@mail.org", "secret"⟩, ⟨"bob@mail.org", "hidden"⟩]
  locals
    | 0 => .atMap ⟨0, "ann@mail.org"⟩
      (Dict.fields (Request.userDict "ann" "ann@mail.org" "secret") 0)
    | 1 => .atMap ⟨1, "bob@mail.org"⟩
      (Dict.fields (Request.userDict "bob" "bob@mail.org" "hidden") 0)
    | _ => .launched
  jobs := []

theorem complete_ofList {l : List Fields}
    (h : l.all (fun f => (requiredFields coll).all (fun k => (f k).isSome)) = true) {f : Fields}
    (hf : (Store.Collection.ofList l).get? id = some f) :
    ∀ k ∈ requiredFields coll, (f k).isSome = true :=
  List.all_eq_true.mp (List.all_eq_true.mp h f (List.mem_of_getElem? hf))

theorem oldPlaylist_complete : Complete oldPlaylist.store := by
  intro coll id f hf
  cases coll with
  | masterPlaylists => exact complete_ofList (by decide) hf
  | userPlaylists => exact complete_ofList (by decide) hf
  | userInfo => exact complete_ofList (by decide) hf

/-- The first user taps the pin of the playlist, up to the handler of the query; then, when
`early`, the write takes effect. -/
def annTapsPin (early : Bool) : List Label :=
  [.event 0 (.calloutTapped ⟨.fin 0, .fin 0⟩), .effect 1 0, .deliver 1 0] ++
    (if early then [.effect 1 0] else [])

def bobReloads : List Label :=
  [.event 1 (.reloadMapClicked 0), .effect 3 0, .deliver 3 864000, .effect 3 0]

theorem deleted_late : ∃ s₁ s₂,
    Run (app .sample) (fun s ℓ => intact s ℓ) oldPlaylist (annTapsPin true ++ bobReloads)
      s₁ ∧
    s₁.store.Deleted .userPlaylists 0 ∧
    Run (app .sample) (fun s ℓ => intact s ℓ) s₁ [.deliver 1 0] s₂ ∧
    s₂.store.doc? .userPlaylists 0 = none ∧ Complete s₂.store := by
  obtain ⟨s₁, h₁, hend⟩ := Run.exists_of_run (P := app .sample) (G := intact)
    (s := oldPlaylist) (l := annTapsPin true ++ bobReloads)
    (Q := fun s₁ => 0 < (s₁.store.firestore .userPlaylists).next &&
      (s₁.store.doc? .userPlaylists 0).isNone &&
      (run (app .sample) intact s₁ [.deliver 1 0]).any (fun _ => true))
    (by decide +kernel)
  obtain ⟨hend, hrest⟩ := Bool.and_eq_true_iff.mp hend
  obtain ⟨hnext, hnone⟩ := Bool.and_eq_true_iff.mp hend
  obtain ⟨s₂, h₂, -⟩ := Run.exists_of_run hrest
  obtain ⟨hgone, hcomplete⟩ := deleted_of_run rfl h₁ h₂
  have hdeleted : s₁.store.Deleted .userPlaylists 0 :=
    ⟨of_decide_eq_true hnext, Option.isNone_iff_eq_none.mp hnone⟩
  exact ⟨s₁, s₂, h₁, hdeleted, h₂, hgone _ _ hdeleted, hcomplete oldPlaylist_complete⟩

/-- **A resurrected playlist**: it is deleted while the write of a tap is on its way, and
the write makes a document with `hasFound` alone. -/
theorem deleted_resurrected : Complete oldPlaylist.store ∧ ∃ s₁ s₂,
    Run (app .sample) (fun _ ℓ => noFailure ℓ) oldPlaylist (annTapsPin false ++ bobReloads) s₁ ∧
    s₁.store.Deleted .userPlaylists 0 ∧
    Run (app .sample) (fun _ ℓ => noFailure ℓ) s₁ [.effect 1 0] s₂ ∧
    s₂.store.doc? .userPlaylists 0 ≠ none ∧ ¬ Complete s₂.store := by
  obtain ⟨s₁, h₁, hend⟩ := Run.exists_of_run (P := app .sample) (G := fun _ => noFailure)
    (s := oldPlaylist) (l := annTapsPin false ++ bobReloads)
    (Q := fun s₁ => 0 < (s₁.store.firestore .userPlaylists).next &&
      (s₁.store.doc? .userPlaylists 0).isNone &&
      (run (app .sample) (fun _ => noFailure) s₁ [.effect 1 0]).any (fun s₂ =>
        (s₂.store.doc? .userPlaylists 0).any (fun f => (f .title).isNone)))
    (by decide +kernel)
  obtain ⟨hend, hrest⟩ := Bool.and_eq_true_iff.mp hend
  obtain ⟨hnext, hnone⟩ := Bool.and_eq_true_iff.mp hend
  obtain ⟨s₂, h₂, hback⟩ := Run.exists_of_run hrest
  obtain ⟨f, hf, htitle⟩ := (Option.any_eq_true ..).mp hback
  refine ⟨oldPlaylist_complete, s₁, s₂, h₁,
    ⟨of_decide_eq_true hnext, Option.isNone_iff_eq_none.mp hnone⟩, h₂,
    by rw [hf]; exact nofun, fun hcomplete => ?_⟩
  have hsome := hcomplete .userPlaylists 0 f hf .title (by simp [requiredFields])
  rw [Option.isNone_iff_eq_none.mp htitle] at hsome
  cases hsome

end SpotiFriend

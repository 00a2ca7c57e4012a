import SpotiFriend.Async.Sequential
import SpotiFriend.Concurrent.Features
import SpotiFriend.Spec.Board

/-!
# New and old playlists

What a completed operation makes of the board when it is no tap: a new playlist is posted
beside the calls that count it, and a reload takes the old ones off, one call for each.

* `board_kept`: the features that are not about playlists;
* `Added.posted`: a new playlist;
* `reload_expires`: a reload.
-/

namespace SpotiFriend

open Async Store

variable {P : Platform} {may : Request → Bool → Prop} {s s' : State} {ls : List Label} {c : ℕ}
  {d : Device} {b st st' : Backend} {r r' : Request} {j : Job} {js js' new : List Job} {l l' : ℕ → Device}
  {m n : ℤ} {e : Event} {p : Coordinate} {email' : String} {id : ℕ} {f : Fields}

def Feature.aboutPlaylists : Feature → Bool
  | .tap => true
  | .reload => true
  | .create => true
  | _ => false

/-- **All other features** leave the board as it is. -/
theorem board_kept (hfeature : e.feature.all (fun F => !F.aboutPlaylists) = true)
    (live : d.crashed = false)
    (hc : Completes (app P) may (running b l c (start e d)) ls s') : s'.store.board = b.board := by
  have hend := hc.1.invariant (I := fun t => (∀ j ∈ t.jobs, (!j.request.feature.aboutPlaylists) = true) ∧
    SamePlaylists b t.store) (fun t ℓ t' ih guard move => ?_) ⟨fun j hj => ?_, .refl b⟩
  · exact hend.2.board
  · obtain ⟨hfeatures, hsame⟩ := ih
    refine ⟨step_features (Q := fun F => !F.aboutPlaylists) hfeatures ?_ move, ?_⟩
    · cases ℓ with
      | event => exact guard.2.elim
      | _ => rfl
    · cases move with
      | event => exact guard.2.elim
      | @effect js₁ js₂ j m split waiting =>
        refine hsame.trans (exec_playlists m t.store ?_)
        have hj := hfeatures j (mem_of_split split)
        cases hr : j.request with
        | storeHasFound | addPlaylist | deleteOldPlaylist =>
          rw [hr] at hj
          cases hj
        | _ => rfl
      | fail | deliver => exact hsame
  · obtain ⟨r, hr, rfl⟩ := List.mem_map.mp hj
    rw [(start_begins e live r hr).feature_eq] at hfeature
    exact hfeature

/-! ### Moves -/

/-- A call that leaves the playlists is answered, or its reply is delivered. -/
theorem advance_spares (move : Advance (app P) may st l j st' l' new)
    (hj : j.request.changesPlaylists = false) : SamePlaylists st st' := by
  cases move with
  | call hcall =>
    cases hcall with
    | done m _ => exact exec_playlists m st hj
    | failed => exact .refl st
  | deliver => exact .refl st

/-- What a move leaves in flight is the call itself or what its handler leads to. -/
theorem advance_leads (move : Advance (app P) may st l j st' l' new) :
    ∀ j' ∈ new, j'.request = j.request ∨ Leads j.request j'.request := by
  intro j' hj'
  cases move with
  | call => exact Or.inl (by rw [List.mem_singleton.mp hj'])
  | @deliver c r reply m live =>
    obtain ⟨r', hr', rfl⟩ := List.mem_map.mp hj'
    exact Or.inr (resume_leads P r m reply (l c) r' hr')

theorem advance_ends (move : Advance (app P) may st l j st' l' new)
    (hj : ∀ r, ¬ Leads j.request r) : ∀ j' ∈ new, j'.request = j.request :=
  fun j' hj' => (advance_leads move j' hj').resolve_right (hj _)

theorem requests_nil (hr : ∀ r', ¬ Leads r r') (m : ℤ) (reply : Except String r.Answer) (d : Device) :
    (resume P r m reply d).2 = [] :=
  List.eq_nil_iff_forall_not_mem.mpr (fun r' hr' => hr r' (resume_leads P r m reply d r' hr'))

/-! ### A new playlist -/

theorem Leads.counts (h : Leads r r') (hr : r.feature = .create) :
    r'.feature = .create ∧ r'.changesPlaylists = false := by
  cases r with
  | createdUserInfo =>
    obtain ⟨id, rfl⟩ := h
    exact ⟨rfl, rfl⟩
  | addPlaylist | storeCreated => cases h
  | _ => cases hr

def Added (P : Platform) (may : Request → Bool → Prop) (r : Request) (b st : Backend) : Prop :=
  (∃ m, SamePlaylists (r.operation.exec P m b).1 st) ∨ (∃ r, may r false) ∧ SamePlaylists b st

theorem Added.trans (h : Added P may r b st) (hsame : SamePlaylists st st') :
    Added P may r b st' := by
  rcases h with ⟨m, h⟩ | ⟨hfalse, h⟩
  · exact Or.inl ⟨m, h.trans hsame⟩
  · exact Or.inr ⟨hfalse, h.trans hsame⟩

inductive Adding (P : Platform) (may : Request → Bool → Prop) (c : ℕ) (r : Request)
    (b st : Backend) : Option Job → Prop
  | waiting (h : SamePlaylists b st) : Adding P may c r b st (some ⟨c, r, none⟩)
  | answered (reply : Except String r.Answer) (h : Added P may r b st) :
      Adding P may c r b st (some ⟨c, r, some reply⟩)
  | settled (h : Added P may r b st) : Adding P may c r b st none

theorem Adding.trans {x : Option Job} (h : Adding P may c r b st x)
    (hsame : SamePlaylists st st') : Adding P may c r b st' x := by
  cases h with
  | waiting h => exact .waiting (h.trans hsame)
  | answered reply h => exact .answered reply (h.trans hsame)
  | settled h => exact .settled (h.trans hsame)

theorem addPlaylist_added {title author email link : String} (hc : Completes (app P) may
      (running b l c (d, [.addPlaylist title author email p link, .createdUserInfo email' n])) ls s') :
    Added P may (.addPlaylist title author email p link) b s'.store := by
  have hend := hc.watched (I := fun x st _ js =>
      (∀ j ∈ js, j.request.feature = .create ∧ j.request.changesPlaylists = false) ∧
        Adding P may c (.addPlaylist title author email p link) b st x)
    ?_ ?_ ?_ (x := some ⟨c, .addPlaylist title author email p link, none⟩) (List.Perm.refl _)
    ⟨List.forall_mem_singleton.mpr ⟨rfl, rfl⟩, .waiting (.refl b)⟩
  · cases hend.2 with
    | settled h => exact h
  · rintro x st locals js js' hperm ⟨hcounts, hadding⟩
    exact ⟨fun j hj => hcounts j (hperm.mem_iff.mpr hj), hadding⟩
  · rintro st locals j js st' locals' new ⟨hcounts, hadding⟩ move
    cases hadding with
    | waiting h =>
      obtain ⟨reply, hcall, -, rfl⟩ := move.of_call
      refine ⟨some _, [], rfl, hcounts, .answered reply ?_⟩
      cases hcall with
      | done m _ => exact Or.inl ⟨m, samePlaylists_addDocument h m⟩
      | failed err hfalse => exact Or.inr ⟨⟨_, hfalse⟩, h⟩
    | answered reply h =>
      cases move with
      | deliver m live =>
        refine ⟨none, [], ?_, hcounts, .settled h⟩
        show List.map _ (resume P _ m reply (locals c)).2 = _
        rw [requests_nil (r := .addPlaylist title author email p link) (fun _ => not_false)]
        rfl
  · rintro x st locals j js st' locals' new ⟨hcounts, hadding⟩ move
    obtain ⟨hj, hjs⟩ := List.forall_mem_cons.mp hcounts
    refine ⟨fun j' hj' => ?_, hadding.trans (advance_spares move hj.2)⟩
    rcases List.mem_append.mp hj' with hnew | hrest
    · rcases advance_leads move j' hnew with hsame | hleads
      · rw [hsame]
        exact hj
      · exact hleads.counts hj.1
    · exact hjs j' hrest

/-- The new playlist is posted, with nobody who has found it. -/
theorem Added.posted {title author email link : String}
    (h : Added P may (.addPlaylist title author email p link) b st) :
    Board.Step (Misses (∃ r, may r false)) b.board (.post (fun now =>
      cardOf .userPlaylists ((Request.playlistDict title author email p link).fields now))) st.board := by
  rcases h with ⟨m, h⟩ | ⟨hfalse, h⟩
  · rw [h.board]
    refine .posted _ m (fun hused => Nat.lt_irrefl _ hused.2) used_addDocument
      (posting_addDocument.trans ?_)
    rw [postingOf]
    simp [Request.playlistDict, getStrings, Entry.resolve]
  · rw [h.board]
    exact .missed hfalse

/-! ### A reload -/

def AsksForStatic (j : Job) : Prop := ∃ map, j.request = .addStaticAnnotations map

/-- The call of the query for the pins of the users, before its answer is handled. -/
inductive Asking (may : Request → Bool → Prop) (c : ℕ) (map : VC) (b : Backend) : Option Job → Prop
  | waiting : Asking may c map b (some ⟨c, .addUserAnnotations map, none⟩)
  | answered : Asking may c map b
      (some ⟨c, .addUserAnnotations map, some (.ok (b.docs .userPlaylists))⟩)
  | refused (err : String) (hfalse : may (.addUserAnnotations map) false) :
      Asking may c map b (some ⟨c, .addUserAnnotations map, some (.error err)⟩)

/-- While playlists are deleted that were too old at the time `m`. -/
structure Clearing (P : Platform) (may : Request → Bool → Prop) (m : ℤ) (b st : Backend)
    (js : List Job) : Prop where
  masters : st.firestore .masterPlaylists = b.firestore .masterPlaylists
  next : (st.firestore .userPlaylists).next = (b.firestore .userPlaylists).next
  kept : ∀ id, st.doc? .userPlaylists id = b.doc? .userPlaylists id ∨
    st.doc? .userPlaylists id = none ∧
      ∃ f, b.doc? .userPlaylists id = some f ∧ MapVC.expired P m ⟨id, f⟩ = true
  jobs : ∀ j ∈ js, AsksForStatic j ∨ ∃ id f, j.request = .deleteOldPlaylist id ∧
    b.doc? .userPlaylists id = some f ∧ MapVC.expired P m ⟨id, f⟩ = true
  waits : ∀ id f, b.doc? .userPlaylists id = some f → MapVC.expired P m ⟨id, f⟩ = true →
    (∃ r, may r false) ∨ st.doc? .userPlaylists id = none ∨
      ∃ c, ⟨c, .deleteOldPlaylist id, none⟩ ∈ js

inductive Reloads (P : Platform) (may : Request → Bool → Prop) (c : ℕ) (map : VC) (b st : Backend) :
    Option Job → List Job → Prop
  | asking {x : Option Job} {js : List Job} (same : SamePlaylists b st)
      (others : ∀ j ∈ js, AsksForStatic j) (h : Asking may c map b x) : Reloads P may c map b st x js
  | clearing {js : List Job} (m : ℤ) (h : Clearing P may m b st js) : Reloads P may c map b st none js

namespace Clearing

theorem perm (h : Clearing P may m b st js) (hperm : js.Perm js') : Clearing P may m b st js' := by
  refine ⟨h.masters, h.next, h.kept, fun j hj => h.jobs j (hperm.mem_iff.mpr hj), fun id f hf hold => ?_⟩
  exact (h.waits id f hf hold).imp_right (Or.imp_right (fun ⟨c, hc⟩ => ⟨c, hperm.mem_iff.mp hc⟩))

/-- The loop over the result leaves a deletion for every playlist that is too old. -/
theorem start (hsame : SamePlaylists b st) (hjs : ∀ j ∈ js, AsksForStatic j) :
    Clearing P may m b st (((((b.docs .userPlaylists).filter (MapVC.expired P m)).map
      (fun doc => Request.deleteOldPlaylist doc.id)).map (Job.issue c)) ++ js) := by
  refine ⟨hsame _ (by decide), by rw [hsame _ (by decide)], fun id => Or.inl (hsame.doc (by decide)),
    fun j hj => ?_, fun id f hf hold => Or.inr (Or.inr ⟨c, List.mem_append_left _ ?_⟩)⟩
  · rcases List.mem_append.mp hj with hnew | hrest
    · obtain ⟨r, hr, rfl⟩ := List.mem_map.mp hnew
      obtain ⟨doc, hdoc, rfl⟩ := List.mem_map.mp hr
      obtain ⟨hdoc, hold⟩ := List.mem_filter.mp hdoc
      exact Or.inr ⟨doc.id, doc.data, rfl, Collection.mem_docs.mp hdoc, hold⟩
    · exact Or.inl (hjs j hrest)
  · refine List.mem_map_of_mem (f := Job.issue c) (List.mem_map.mpr ⟨⟨id, f⟩, ?_, rfl⟩)
    exact List.mem_filter.mpr ⟨Collection.mem_docs.mpr hf, hold⟩

theorem unanswered (hfalse : ∃ r, may r false) (hsame : SamePlaylists b st)
    (hjs : ∀ j ∈ js, AsksForStatic j) : Clearing P may m b st js :=
  ⟨hsame _ (by decide), by rw [hsame _ (by decide)], fun _ => Or.inl (hsame.doc (by decide)),
    fun j hj => Or.inl (hjs j hj), fun _ _ _ _ => Or.inl hfalse⟩

/-- A job makes a move that deletes no other document than its own. -/
theorem move (h : Clearing P may m b st (j :: js))
    (hmasters : st'.firestore .masterPlaylists = st.firestore .masterPlaylists)
    (hnext : (st'.firestore .userPlaylists).next = (st.firestore .userPlaylists).next)
    (hdoc : ∀ id, st'.doc? .userPlaylists id = st.doc? .userPlaylists id ∨
      st'.doc? .userPlaylists id = none ∧ j.request = .deleteOldPlaylist id)
    (hnew : ∀ j' ∈ new, j'.request = j.request)
    (hdone : ∀ id c, j = ⟨c, .deleteOldPlaylist id, none⟩ →
      (∃ r, may r false) ∨ st'.doc? .userPlaylists id = none) :
    Clearing P may m b st' (new ++ js) := by
  obtain ⟨hj, hjs⟩ := List.forall_mem_cons.mp h.jobs
  refine ⟨hmasters.trans h.masters, hnext.trans h.next, fun id => ?_, fun j' hj' => ?_,
    fun id f hf hold => ?_⟩
  · rcases hdoc id with hsame | ⟨hgone, hid⟩
    · rw [hsame]
      exact h.kept id
    · rcases hj with ⟨map, hmap⟩ | ⟨id', f, hid', hf, hold⟩
      · rw [hmap] at hid
        cases hid
      · obtain rfl := Request.deleteOldPlaylist.inj (hid.symm.trans hid')
        exact Or.inr ⟨hgone, f, hf, hold⟩
  · rcases List.mem_append.mp hj' with hj' | hj'
    · rw [AsksForStatic, hnew j' hj']
      exact hj
    · exact hjs j' hj'
  · rcases h.waits id f hf hold with hfalse | hgone | ⟨c, hc⟩
    · exact Or.inl hfalse
    · exact Or.inr (Or.inl ((hdoc id).elim (fun hsame => hsame.trans hgone) And.left))
    · rcases List.mem_cons.mp hc with hhead | hc
      · exact (hdone id c hhead.symm).imp_right Or.inl
      · exact Or.inr (Or.inr ⟨c, List.mem_append_right _ hc⟩)

theorem advance (h : Clearing P may m b st (j :: js)) (move : Advance (app P) may st l j st' l' new) :
    Clearing P may m b st' (new ++ js) := by
  have hj := h.jobs j List.mem_cons_self
  have hnew : ∀ j' ∈ new, j'.request = j.request := by
    refine advance_ends move (fun r hleads => ?_)
    rcases hj with ⟨map, hj⟩ | ⟨id, f, hj, -⟩
    · rw [hj] at hleads
      exact hleads
    · rw [hj] at hleads
      exact hleads
  rcases hj with ⟨map, hj⟩ | ⟨id, f, hj, -⟩
  · have hsame := advance_spares move (by rw [hj]; rfl)
    refine h.move (hsame _ (by decide)) (by rw [hsame _ (by decide)])
      (fun id => Or.inl (hsame.doc (by decide))) hnew ?_
    rintro id c rfl
    cases hj
  · cases move with
    | @call c r reply st' hcall =>
      obtain rfl : r = .deleteOldPlaylist id := hj
      cases hcall with
      | done m' _ =>
        have hdoc : ∀ id', ((Operation.deleteDocument .userPlaylists id).exec P m' st).1.doc?
            .userPlaylists id' = if id' = id then none else st.doc? .userPlaylists id' := by
          intro id'
          rw [doc?_deleteDocument]
          simp
        refine h.move ?_ ?_ (fun id' => ?_) hnew (fun id' c' hhead => ?_)
        · exact firestore_deleteDocument (P := P) (m := m') .masterPlaylists
        · show (((Operation.deleteDocument .userPlaylists id).exec P m' st).1.firestore _).next = _
          rw [firestore_deleteDocument]
          rfl
        · by_cases hid : id' = id
          · exact Or.inr ⟨(hdoc id').trans (if_pos hid), by rw [hid]⟩
          · exact Or.inl ((hdoc id').trans (if_neg hid))
        · obtain rfl := Request.deleteOldPlaylist.inj (congrArg Job.request hhead)
          exact Or.inr ((hdoc _).trans (if_pos rfl))
      | failed err hfalse =>
        exact h.move rfl rfl (fun _ => Or.inl rfl) hnew (fun _ _ _ => Or.inl ⟨_, hfalse⟩)
    | @deliver c r reply m' live =>
      obtain rfl : r = .deleteOldPlaylist id := hj
      refine h.move rfl rfl (fun _ => Or.inl rfl) hnew (fun id' c' hhead => ?_)
      cases hhead

/-- In the end the playlists that were too old are off the board. -/
theorem cleared (h : Clearing P may m b st []) :
    Board.Step (Misses (∃ r, may r false)) b.board (.expire (Old P)) st.board := by
  have hmasters : ∀ id, st.doc? .masterPlaylists id = b.doc? .masterPlaylists id := by
    intro id
    rw [Backend.doc?, h.masters, Backend.doc?]
  refine changed_of_docs m (fun _ h => by cases h) ?_ ?_ ?_
  · intro coll hinfo
    cases coll with
    | masterPlaylists => rw [h.masters]
    | userPlaylists => exact h.next
    | userInfo => exact absurd rfl hinfo
  · intro coll id hinfo hnone
    cases coll with
    | masterPlaylists => exact (hmasters id).trans hnone
    | userPlaylists =>
      rcases h.kept id with hsame | ⟨-, f, hf, -⟩
      · exact hsame.trans hnone
      · rw [hnone] at hf
        cases hf
    | userInfo => exact absurd rfl hinfo
  · intro coll id f hinfo hf
    cases coll with
    | masterPlaylists =>
      left
      rw [hmasters, hf, on_expire id, if_neg (fun hand => by cases hand.1)]
      rfl
    | userPlaylists =>
      rw [on_expire id]
      rcases h.kept id with hsame | ⟨hgone, f', hf', hold⟩
      · split
        · next hold =>
          rcases h.waits id f hf hold.2 with hfalse | hgone | ⟨c, hc⟩
          · exact Or.inr ⟨hfalse, hsame.trans hf⟩
          · rw [hsame, hf] at hgone
            cases hgone
          · cases hc
        · exact Or.inl (by rw [hsame, hf]; rfl)
      · obtain rfl := Option.some.inj (hf.symm.trans hf')
        left
        rw [if_pos ⟨rfl, hold⟩, hgone]
        rfl
    | userInfo => exact absurd rfl hinfo

end Clearing

theorem AsksForStatic.moves (hj : AsksForStatic j)
    (move : Advance (app P) may st l j st' l' new) :
    SamePlaylists st st' ∧ ∀ j' ∈ new, AsksForStatic j' := by
  obtain ⟨map, hj⟩ := hj
  exact ⟨advance_spares move (by rw [hj]; rfl), fun j' hj' =>
    ⟨map, (advance_ends move (by rw [hj]; exact fun _ => not_false) j' hj').trans hj⟩⟩

/-- **A reload** takes the playlists off that are too old. -/
theorem reload_expires {map : VC} (hc : Completes (app P) may
      (running b l c (d, [.addStaticAnnotations map, .addUserAnnotations map])) ls s') :
    Board.Step (Misses (∃ r, may r false)) b.board (.expire (Old P)) s'.store.board := by
  have hend := hc.watched (I := fun x st _ js => Reloads P may c map b st x js) ?_ ?_ ?_
    (x := some ⟨c, .addUserAnnotations map, none⟩) (List.Perm.swap ..)
    (.asking (.refl b) (List.forall_mem_singleton.mpr ⟨map, rfl⟩) .waiting)
  · cases hend with
    | asking _ _ h => cases h
    | clearing m h => exact h.cleared
  · intro x st locals js js' hperm h
    cases h with
    | asking same others h => exact .asking same (fun j hj => others j (hperm.mem_iff.mpr hj)) h
    | clearing m h => exact .clearing m (h.perm hperm)
  · intro st locals j js st' locals' new h move
    cases h with
    | asking same others h =>
      cases h with
      | waiting =>
        obtain ⟨reply, hcall, -, rfl⟩ := move.of_call
        refine ⟨some _, [], rfl, ?_⟩
        cases hcall with
        | done m _ =>
          refine .asking same others ?_
          show Asking may c map b (some ⟨c, .addUserAnnotations map,
            some (.ok (st.getDocuments (.all .userPlaylists)))⟩)
          rw [Backend.getDocuments_all, Backend.docs, same _ (by decide)]
          exact .answered
        | failed err hfalse => exact .asking same others (.refused err hfalse)
      | answered =>
        cases move with
        | deliver m live =>
          have live : (locals c).crashed = false := by simpa using live
          obtain ⟨alerts, hreply⟩ :=
            MapVC.addUserAnnotationsReply_apply P map m (b.docs .userPlaylists) live
          refine ⟨none, _, rfl, .clearing m ?_⟩
          show Clearing P may m b st ((MapVC.addUserAnnotationsReply P map m _ (locals c)).2.map _ ++ js)
          rw [hreply]
          exact .start same others
      | refused err hfalse =>
        cases move with
        | deliver m live => exact ⟨none, [], rfl, .clearing m (.unanswered ⟨_, hfalse⟩ same others)⟩
  · intro x st locals j js st' locals' new h move
    cases h with
    | asking same others h =>
      obtain ⟨hj, hjs⟩ := List.forall_mem_cons.mp others
      obtain ⟨hsame, hnew⟩ := hj.moves move
      exact .asking (same.trans hsame)
        (fun j' hj' => (List.mem_append.mp hj').elim (hnew j') (hjs j')) h
    | clearing m h => exact .clearing m (h.advance move)

end SpotiFriend

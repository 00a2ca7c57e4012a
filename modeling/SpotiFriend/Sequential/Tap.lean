import SpotiFriend.Sequential.Posting

/-!
# A tap on any number of playlists

A tap asks both collections for the playlists at a place and writes the user down on each of
them that lacks it.  `Tapping` is what holds while the calls are worked off in whatever order:
every playlist that lacks the user is marked, or `Due`, or may be missed.

* `Tapping.advance`: a move of the tap;
* `tap_finds`: the tap is one step of the board.
-/

namespace SpotiFriend

open Async Store

variable {P : Platform} {may : Request → Bool → Prop} {s' : State} {ls : List Label} {c : ℕ}
  {d d' : Device} {b st st' : Backend} {coll : CollectionName} {id : ℕ} {f : Fields} {j : Job}
  {js js' new : List Job} {l locals locals' : ℕ → Device} {m : ℤ} {p : Coordinate} {email : String}
  {found : List String} {missing : Prop}

/-! ### A tap -/

/-- The playlist is at the coordinate, and the user is not among those who have found it. -/
structure Lacks (b : Backend) (p : Coordinate) (email : String) (coll : CollectionName) (id : ℕ)
    (f : Fields) (found : List String) : Prop where
  playlist : coll ≠ .userInfo
  stored : b.doc? coll id = some f
  there : (Query.atCoordinate coll p).holds f = true
  list : getStrings f .hasFound = some found
  lacks : email ∉ found

def marked (email : String) (found : List String) (f : Fields) : Fields :=
  Function.update f .hasFound (some (.strings (found ++ [email])))

/-- The result shows a playlist as it was at the tap, or already marked. -/
def ShowsPlaylist (b : Backend) (p : Coordinate) (email : String) (coll : CollectionName) (doc : Doc) :
    Prop :=
  (b.doc? coll doc.id = some doc.data ∧ (Query.atCoordinate coll p).holds doc.data = true) ∨
    ∃ f found, Lacks b p email coll doc.id f found ∧ doc.data = marked email found f

inductive Taps (b : Backend) (p : Coordinate) (email : String) (c : ℕ) : Job → Prop
  | asking (coll : CollectionName) (hcoll : coll ≠ .userInfo) :
      Taps b p email c ⟨c, .checkPlaylists coll p, none⟩
  | asked (coll : CollectionName) (docs : List Doc) (hcoll : coll ≠ .userInfo)
      (h : ∀ doc ∈ docs, ShowsPlaylist b p email coll doc) :
      Taps b p email c ⟨c, .checkPlaylists coll p, some (.ok docs)⟩
  | refused (coll : CollectionName) (err : String) :
      Taps b p email c ⟨c, .checkPlaylists coll p, some (.error err)⟩
  | marking {coll : CollectionName} {id : ℕ} {f : Fields} {found : List String}
      (h : Lacks b p email coll id f found) (reply : Option (Except String Unit)) :
      Taps b p email c ⟨c, .storeHasFound coll id (found ++ [email]) email, reply⟩
  | counting (r : Request) (reply : Option (Except String r.Answer))
      (hr : (∃ email, r = .foundUserInfo email) ∨ ∃ id n, r = .storeFound id n) :
      Taps b p email c ⟨c, r, reply⟩

/-- The job is going to mark the playlist. -/
def Due (p : Coordinate) (email : String) (c : ℕ) (coll : CollectionName) (id : ℕ) (f : Fields)
    (j : Job) : Prop :=
  j = ⟨c, .checkPlaylists coll p, none⟩ ∨
    (∃ docs, j = ⟨c, .checkPlaylists coll p, some (.ok docs)⟩ ∧ (⟨id, f⟩ : Doc) ∈ docs) ∨
    ∃ l, j = ⟨c, .storeHasFound coll id l email, none⟩

/-- There is a playlist at the coordinate whose link crashes the app where Spotify is installed. -/
def Unopenable (b : Backend) (p : Coordinate) : Prop := ∃ coll id f, coll ≠ .userInfo ∧
  b.doc? coll id = some f ∧ (Query.atCoordinate coll p).holds f = true ∧
  canOpen (MapVC.linkOf f) = false

/-- While a tap is worked off.  Where `missing` holds, a playlist may stay as it was. -/
structure Tapping (missing : Prop) (b : Backend) (p : Coordinate) (email : String) (c : ℕ)
    (st : Backend) (d : Device) (js : List Job) : Prop where
  user : d.sharedUserInfo.email = email
  next : ∀ coll, coll ≠ .userInfo → (st.firestore coll).next = (b.firestore coll).next
  docs : ∀ coll id, coll ≠ .userInfo → st.doc? coll id = b.doc? coll id ∨
    ∃ f found, Lacks b p email coll id f found ∧ st.doc? coll id = some (marked email found f)
  jobs : ∀ j ∈ js, Taps b p email c j
  due : ∀ coll id f found, Lacks b p email coll id f found → missing ∨
    st.doc? coll id = some (marked email found f) ∨ ∃ j ∈ js, Due p email c coll id f j

namespace Lacks

variable {found' : List String} {f' : Fields}

theorem unique (h : Lacks b p email coll id f found) (h' : Lacks b p email coll id f' found') :
    f' = f ∧ found' = found := by
  obtain rfl := Option.some.inj (h'.stored.symm.trans h.stored)
  exact ⟨rfl, Option.some.inj (h'.list.symm.trans h.list)⟩

theorem found? (h : Lacks b p email coll id f found) : MapVC.found? coll email ⟨id, f⟩ =
    some (.storeHasFound coll id (found ++ [email]) email) :=
  MapVC.found?_eq_some.mpr ⟨found, h.list, h.lacks, rfl⟩

theorem posting (h : Lacks b p email coll id f found) :
    Board.Input.on m (.find (AtPlace p) email) (postingOf coll f) =
      some (postingOf coll (marked email found f)) := by
  have hhere : AtPlace p (postingOf coll f).content := atPlace_cardOf.mpr h.there
  rw [Board.Input.on, if_pos hhere, Posting.mark, postingOf, postingOf, h.list,
    marked, cardOf, cardOf, Function.update_idem, getStrings, Function.update_self]
  refine congrArg some (congrArg _ (congrArg some (Set.ext fun x => ?_)))
  simp [or_comm]

end Lacks

theorem on_find_of_not_lacks (hcoll : coll ≠ .userInfo) (hf : b.doc? coll id = some f)
    (h : ∀ found, ¬ Lacks b p email coll id f found) :
    Board.Input.on m (.find (AtPlace p) email) (postingOf coll f) = some (postingOf coll f) := by
  rw [Board.Input.on]
  split
  · next hhere =>
    have hhere := atPlace_cardOf.mp hhere
    cases hlist : getStrings f .hasFound with
    | none => rw [Posting.mark, postingOf, hlist]; rfl
    | some found =>
      have hmem : email ∈ found := by
        by_contra hmem
        exact h found ⟨hcoll, hf, hhere, hlist, hmem⟩
      rw [Posting.mark, postingOf, hlist, Option.map_some, Option.map_some,
        Set.insert_eq_of_mem (by exact hmem)]
  · rfl

theorem Taps.feature (h : Taps b p email c j) : j.request.feature = .tap := by
  cases h with
  | counting r reply hr => rcases hr with ⟨_, rfl⟩ | ⟨_, _, rfl⟩ <;> rfl
  | _ => rfl

theorem advance_email (move : Advance (app P) may st locals j st' locals' new) (hj : j.request.feature = .tap) :
    (locals' c).sharedUserInfo.email = (locals c).sharedUserInfo.email := by
  cases move with
  | call => rfl
  | @deliver c' r reply m live =>
    by_cases hc : c = c'
    · subst hc
      rw [Function.update_self, show (app P).resume = resume P from rfl,
        resume_shared P r m reply (by simpa using live)]
      cases r with
      | checkPlaylists | storeHasFound | foundUserInfo | storeFound => cases reply <;> rfl
      | _ => cases hj
    · rw [Function.update_of_ne hc]

namespace Tapping

theorem perm (h : Tapping missing b p email c st d js) (hperm : js.Perm js') :
    Tapping missing b p email c st d js' := by
  refine ⟨h.user, h.next, h.docs, fun j hj => h.jobs j (hperm.mem_iff.mpr hj), fun coll id f found hf => ?_⟩
  exact (h.due coll id f found hf).imp_right
    (Or.imp_right (fun ⟨j, hj, hdue⟩ => ⟨j, hperm.mem_iff.mp hj, hdue⟩))

/-- A job makes a move that does no more than to mark playlists. -/
theorem move (h : Tapping missing b p email c st d (j :: js))
    (huser : d'.sharedUserInfo.email = d.sharedUserInfo.email)
    (hnext : ∀ coll, coll ≠ .userInfo → (st'.firestore coll).next = (st.firestore coll).next)
    (hdocs : ∀ coll id, coll ≠ .userInfo → st'.doc? coll id = st.doc? coll id ∨
      ∃ f found, Lacks b p email coll id f found ∧ st'.doc? coll id = some (marked email found f))
    (hnew : ∀ j' ∈ new, Taps b p email c j')
    (hdue : ∀ coll id f found, Lacks b p email coll id f found → Due p email c coll id f j →
      missing ∨ st'.doc? coll id = some (marked email found f) ∨
        ∃ j' ∈ new, Due p email c coll id f j') :
    Tapping missing b p email c st' d' (new ++ js) := by
  have hjs := (List.forall_mem_cons.mp h.jobs).2
  refine ⟨huser.trans h.user, fun coll hcoll => (hnext coll hcoll).trans (h.next coll hcoll),
    fun coll id hcoll => ?_, fun j' hj' => (List.mem_append.mp hj').elim (hnew j') (hjs j'),
    fun coll id f found hf => ?_⟩
  · rcases hdocs coll id hcoll with hsame | hmarked
    · rw [hsame]
      exact h.docs coll id hcoll
    · exact Or.inr hmarked
  · rcases h.due coll id f found hf with hmissing | hmarked | ⟨j', hj', hdue'⟩
    · exact Or.inl hmissing
    · refine Or.inr (Or.inl ?_)
      rcases hdocs coll id hf.playlist with hsame | ⟨f', found', hf', hmarked'⟩
      · exact hsame.trans hmarked
      · obtain ⟨rfl, rfl⟩ := hf.unique hf'
        exact hmarked'
    · rcases List.mem_cons.mp hj' with rfl | hj'
      · exact (hdue coll id f found hf hdue').imp_right
          (Or.imp_right (fun ⟨j, hj, hd⟩ => ⟨j, List.mem_append_left _ hj, hd⟩))
      · exact Or.inr (Or.inr ⟨j', List.mem_append_right _ hj', hdue'⟩)

/-- The query shows the playlists at the coordinate, and those that lack the user are due. -/
theorem query (h : Tapping missing b p email c st d js) (hcoll : coll ≠ .userInfo) :
    (∀ doc ∈ st.getDocuments (.atCoordinate coll p), ShowsPlaylist b p email coll doc) ∧
      ∀ id f found, Lacks b p email coll id f found → st.doc? coll id = some (marked email found f) ∨
        (⟨id, f⟩ : Doc) ∈ st.getDocuments (.atCoordinate coll p) := by
  refine ⟨fun doc hdoc => ?_, fun id f found hf => ?_⟩
  · obtain ⟨hget, hhere⟩ := Backend.mem_getDocuments.mp hdoc
    rcases h.docs coll doc.id hcoll with hsame | ⟨f, found, hf, hmarked⟩
    · exact Or.inl ⟨hsame.symm.trans hget, hhere⟩
    · exact Or.inr ⟨f, found, hf, Option.some.inj (hget.symm.trans hmarked)⟩
  · rcases h.docs coll id hcoll with hsame | ⟨f', found', hf', hmarked⟩
    · exact Or.inr (Backend.mem_getDocuments.mpr ⟨hsame.trans hf.stored, hf.there⟩)
    · obtain ⟨rfl, rfl⟩ := hf.unique hf'
      exact Or.inl hmarked

theorem write (h : Tapping missing b p email c st d js)
    (hf : Lacks b p email coll id f found) (m : ℤ) :
    (∀ coll', (((Request.storeHasFound coll id (found ++ [email]) email).operation.exec P m st).1.firestore
        coll').next = (st.firestore coll').next) ∧
      ∀ coll' id', ((Request.storeHasFound coll id (found ++ [email]) email).operation.exec P m st).1.doc?
        coll' id' = if coll' = coll ∧ id' = id then some (marked email found f) else st.doc? coll' id' := by
  have hstored : ∃ f', st.doc? coll id = some f' ∧
      Function.update f' .hasFound (some (.strings (found ++ [email]))) = marked email found f := by
    rcases h.docs coll id hf.playlist with hsame | ⟨f', found', hf', hmarked⟩
    · exact ⟨f, hsame.trans hf.stored, rfl⟩
    · obtain ⟨rfl, rfl⟩ := hf.unique hf'
      exact ⟨_, hmarked, Function.update_idem ..⟩
  obtain ⟨f', hf', hmarked⟩ := hstored
  refine ⟨fun coll' => ?_, fun coll' id' => ?_⟩
  · rw [Operation.exec, Backend.setCollection_firestore]
    by_cases hcoll : coll' = coll
    · rw [hcoll, Function.update_self]
      exact Nat.max_eq_left (Collection.lt_next hf')
    · rw [Function.update_of_ne hcoll]
  · rw [doc?_setData, hf', merge_hasFound, Option.getD_some, hmarked]

/-- The handler of the query leaves a write for each playlist that lacks the user; when it
crashes the device, there was a link that it cannot open. -/
theorem handle (P : Platform) (h : Tapping missing b p email c st d js) (live : d.crashed = false)
    {docs : List Doc} (hcoll : coll ≠ .userInfo)
    (hshows : ∀ doc ∈ docs, ShowsPlaylist b p email coll doc) :
    (∀ r ∈ (MapVC.checkPlaylistsReply coll (.ok docs) d).2, Taps b p email c ⟨c, r, none⟩) ∧
      ∀ id f found, Lacks b p email coll id f found → (⟨id, f⟩ : Doc) ∈ docs →
        Unopenable b p ∨ .storeHasFound coll id (found ++ [email]) email ∈
          (MapVC.checkPlaylistsReply coll (.ok docs) d).2 := by
  refine ⟨fun r hr => ?_, fun id f found hf hmem => ?_⟩
  · have hr := (MapVC.checkPlaylists_requests coll docs d).subset hr
    obtain ⟨doc, hdoc, hfound⟩ := List.mem_filterMap.mp hr
    rw [h.user] at hfound
    obtain ⟨found, hlist, hlacks, rfl⟩ := MapVC.found?_eq_some.mp hfound
    rcases hshows doc hdoc with ⟨hget, hhere⟩ | ⟨f, found', hf, hmarked⟩
    · exact .marking ⟨hcoll, hget, hhere, hlist, hlacks⟩ none
    · rw [hmarked, marked, getStrings, Function.update_self] at hlist
      obtain rfl : found' ++ [email] = found := Option.some.inj hlist
      exact absurd (List.mem_append_right _ List.mem_cons_self) hlacks
  · by_cases hcrashed : (MapVC.checkPlaylistsReply coll (.ok docs) d).1.crashed = true
    · left
      have hfatal : fatalReply P d (.checkPlaylists coll p) (.ok docs) = true :=
        (resume_crashed P (.checkPlaylists coll p) 0 (.ok docs) live).symm.trans hcrashed
      obtain ⟨doc, hdoc, hlink⟩ := List.any_eq_true.mp (Bool.and_eq_true_iff.mp hfatal).2
      rw [Bool.not_eq_true'] at hlink
      rcases hshows doc hdoc with ⟨hget, hhere⟩ | ⟨f, found', hf, hmarked⟩
      · exact ⟨coll, doc.id, doc.data, hcoll, hget, hhere, hlink⟩
      · refine ⟨coll, doc.id, f, hcoll, hf.stored, hf.there, ?_⟩
        rw [hmarked, MapVC.linkOf, marked, Function.update_of_ne (by decide)] at hlink
        exact hlink
    · right
      rw [MapVC.checkPlaylists_requests_of_live (Bool.eq_false_iff.mpr hcrashed), h.user]
      exact List.mem_filterMap.mpr ⟨_, hmem, hf.found?⟩

theorem advance_asking (hfalse : (∃ r, may r false) → missing)
    (h : Tapping missing b p email c st (locals c) (⟨c, .checkPlaylists coll p, none⟩ :: js))
    (hcoll : coll ≠ .userInfo)
    (move : Advance (app P) may st locals ⟨c, .checkPlaylists coll p, none⟩ st' locals' new) :
    Tapping missing b p email c st' (locals' c) (new ++ js) := by
  obtain ⟨reply, hcall, rfl, rfl⟩ := move.of_call
  cases hcall with
  | done m _ =>
    obtain ⟨hshows, hdue⟩ := h.query hcoll
    refine h.move rfl (fun _ _ => rfl) (fun _ _ _ => Or.inl rfl) (fun j' hj' => ?_)
      (fun coll' id f found hf hd => ?_)
    · rw [List.mem_singleton.mp hj']
      exact .asked coll _ hcoll hshows
    · rcases hd with hd | ⟨docs', hd, -⟩ | ⟨l, hd⟩
      · cases hd
        exact Or.inr ((hdue id f found hf).imp_right
          (fun hmem => ⟨_, List.mem_singleton_self _, Or.inr (Or.inl ⟨_, rfl, hmem⟩)⟩))
      · cases hd
      · cases hd
  | failed err hmay =>
    refine h.move rfl (fun _ _ => rfl) (fun _ _ _ => Or.inl rfl) (fun j' hj' => ?_)
      (fun _ _ _ _ _ _ => Or.inl (hfalse ⟨_, hmay⟩))
    rw [List.mem_singleton.mp hj']
    exact .refused coll err

theorem advance_asked {docs : List Doc} (hlink : Unopenable b p → missing)
    (h : Tapping missing b p email c st (locals c)
      (⟨c, .checkPlaylists coll p, some (.ok docs)⟩ :: js)) (hcoll : coll ≠ .userInfo)
    (hshows : ∀ doc ∈ docs, ShowsPlaylist b p email coll doc)
    (huser : (locals' c).sharedUserInfo.email = (locals c).sharedUserInfo.email)
    (move : Advance (app P) may st locals ⟨c, .checkPlaylists coll p, some (.ok docs)⟩ st' locals' new) :
    Tapping missing b p email c st' (locals' c) (new ++ js) := by
  cases move with
  | deliver m live =>
    have live : (locals c).crashed = false := by simpa using live
    obtain ⟨hnew, hdue⟩ := h.handle P live hcoll hshows
    refine h.move huser (fun _ _ => rfl) (fun _ _ _ => Or.inl rfl) (fun j' hj' => ?_)
      (fun coll' id f found hf hd => ?_)
    · obtain ⟨r, hr, rfl⟩ := List.mem_map.mp hj'
      exact hnew r hr
    · rcases hd with hd | ⟨docs', hd, hmem⟩ | ⟨l, hd⟩
      · cases hd
      · cases hd
        rcases hdue id f found hf hmem with hbad | hr
        · exact Or.inl (hlink hbad)
        · exact Or.inr (Or.inr ⟨_, List.mem_map_of_mem (f := Job.issue c) hr, Or.inr (Or.inr ⟨_, rfl⟩)⟩)
      · cases hd

theorem advance_marking {reply : Option (Except String Unit)} (hfalse : (∃ r, may r false) → missing)
    (h : Tapping missing b p email c st (locals c)
      (⟨c, .storeHasFound coll id (found ++ [email]) email, reply⟩ :: js))
    (hf : Lacks b p email coll id f found)
    (huser : (locals' c).sharedUserInfo.email = (locals c).sharedUserInfo.email)
    (move : Advance (app P) may st locals
      ⟨c, .storeHasFound coll id (found ++ [email]) email, reply⟩ st' locals' new) :
    Tapping missing b p email c st' (locals' c) (new ++ js) := by
  cases move with
  | call hcall =>
    cases hcall with
    | done m _ =>
      obtain ⟨hnext, hdoc⟩ := h.write (P := P) hf m
      refine h.move huser (fun coll' _ => hnext coll') (fun coll' id' _ => ?_) (fun j' hj' => ?_)
        (fun coll' id' f' found' hf' hd => ?_)
      · by_cases hkey : coll' = coll ∧ id' = id
        · obtain ⟨rfl, rfl⟩ := hkey
          exact Or.inr ⟨f, found, hf, (hdoc coll' id').trans (if_pos ⟨rfl, rfl⟩)⟩
        · exact Or.inl ((hdoc coll' id').trans (if_neg hkey))
      · rw [List.mem_singleton.mp hj']
        exact .marking hf _
      · rcases hd with hd | ⟨docs', hd, hmem⟩ | ⟨l, hd⟩
        · cases hd
        · cases hd
        · cases hd
          obtain ⟨rfl, rfl⟩ := hf.unique hf'
          exact Or.inr (Or.inl ((hdoc coll id).trans (if_pos ⟨rfl, rfl⟩)))
    | failed err hmay =>
      refine h.move huser (fun _ _ => rfl) (fun _ _ _ => Or.inl rfl) (fun j' hj' => ?_)
        (fun _ _ _ _ _ _ => Or.inl (hfalse ⟨_, hmay⟩))
      rw [List.mem_singleton.mp hj']
      exact .marking hf _
  | deliver m live =>
    refine h.move huser (fun _ _ => rfl) (fun _ _ _ => Or.inl rfl) (fun j' hj' => ?_)
      (fun coll' id' f' found' hf' hd => ?_)
    · obtain ⟨r, hr, rfl⟩ := List.mem_map.mp hj'
      exact .counting r none (Or.inl ⟨email, resume_leads P _ m _ _ r hr⟩)
    · rcases hd with hd | ⟨docs', hd, hmem⟩ | ⟨l, hd⟩ <;> cases hd

theorem advance_counting {r : Request} {reply : Option (Except String r.Answer)}
    (h : Tapping missing b p email c st (locals c) (⟨c, r, reply⟩ :: js))
    (hr : (∃ email, r = .foundUserInfo email) ∨ ∃ id n, r = .storeFound id n)
    (huser : (locals' c).sharedUserInfo.email = (locals c).sharedUserInfo.email)
    (move : Advance (app P) may st locals ⟨c, r, reply⟩ st' locals' new) :
    Tapping missing b p email c st' (locals' c) (new ++ js) := by
  have hsame : SamePlaylists st st' :=
    advance_spares move (by rcases hr with ⟨_, rfl⟩ | ⟨_, _, rfl⟩ <;> rfl)
  refine h.move huser (fun coll hcoll => by rw [hsame coll hcoll])
    (fun coll id hcoll => Or.inl (hsame.doc hcoll)) (fun j' hj' => ?_)
    (fun coll' id' f' found' hf' hd => ?_)
  · cases move with
    | call =>
      rw [List.mem_singleton.mp hj']
      exact .counting r _ hr
    | @deliver _ _ a m live =>
      obtain ⟨r', hr', rfl⟩ := List.mem_map.mp hj'
      have hleads := resume_leads P r m a _ r' hr'
      rcases hr with ⟨_, rfl⟩ | ⟨_, _, rfl⟩
      · exact .counting r' none (Or.inr hleads)
      · exact hleads.elim
  · rcases hr with ⟨_, rfl⟩ | ⟨_, _, rfl⟩ <;> rcases hd with hd | ⟨docs', hd, hmem⟩ | ⟨l, hd⟩ <;> cases hd

/-- **A move** of the tap. -/
theorem advance (hfalse : (∃ r, may r false) → missing) (hlink : Unopenable b p → missing)
    (h : Tapping missing b p email c st (locals c) (j :: js))
    (move : Advance (app P) may st locals j st' locals' new) :
    Tapping missing b p email c st' (locals' c) (new ++ js) := by
  have htaps := h.jobs j List.mem_cons_self
  have huser := advance_email (c := c) move htaps.feature
  cases htaps with
  | asking coll hcoll => exact h.advance_asking hfalse hcoll move
  | asked coll docs hcoll hshows => exact h.advance_asked hlink hcoll hshows huser move
  | refused coll err =>
    cases move with
    | deliver m live =>
      refine h.move huser (fun _ _ => rfl) (fun _ _ _ => Or.inl rfl) (List.forall_mem_nil _)
        (fun coll' id f found hf hd => ?_)
      rcases hd with hd | ⟨docs', hd, hmem⟩ | ⟨l, hd⟩ <;> cases hd
  | marking hf reply => exact h.advance_marking hfalse hf huser move
  | counting r reply hr => exact h.advance_counting hr huser move

theorem finds {fails : Prop} (h : Tapping missing b p email c st d [])
    (hmissing : missing → Misses fails b.board (.find (AtPlace p) email)) :
    Board.Step (Misses fails) b.board (.find (AtPlace p) email) st.board := by
  refine changed_of_docs 0 (fun _ h => by cases h) h.next (fun coll id hcoll hnone => ?_)
    (fun coll id f hcoll hf => ?_)
  · rcases h.docs coll id hcoll with hsame | ⟨f, found, hf, -⟩
    · exact hsame.trans hnone
    · rw [hf.stored] at hnone
      cases hnone
  · by_cases hlacks : ∃ found, Lacks b p email coll id f found
    · obtain ⟨found, hlacks⟩ := hlacks
      have hmarks : st.doc? coll id = some (marked email found f) →
          (st.doc? coll id).map (postingOf coll) =
            Board.Input.on (0 : ℤ) (.find (AtPlace p) email) (postingOf coll f) := by
        intro hmarked
        rw [hmarked, hlacks.posting]
        rfl
      rcases h.due coll id f found hlacks with hmiss | hmarked | ⟨j, hj, -⟩
      · rcases h.docs coll id hcoll with hsame | ⟨f', found', hf', hmarked⟩
        · exact Or.inr ⟨hmissing hmiss, hsame.trans hf⟩
        · obtain ⟨rfl, rfl⟩ := hlacks.unique hf'
          exact Or.inl (hmarks hmarked)
      · exact Or.inl (hmarks hmarked)
      · cases hj
    · left
      rw [on_find_of_not_lacks hcoll hf (fun found hfound => hlacks ⟨found, hfound⟩)]
      rcases h.docs coll id hcoll with hsame | ⟨f', found', hf', -⟩
      · rw [hsame, hf]
        rfl
      · obtain rfl := Option.some.inj (hf'.stored.symm.trans hf)
        exact absurd ⟨found', hf'⟩ hlacks

end Tapping

theorem misses_find {fails : Prop} : Misses fails b.board (.find (AtPlace p) email) ↔
    fails ∨ Unopenable b p := by
  refine or_congr_right ⟨?_, ?_⟩
  · rintro ⟨⟨coll, id⟩, x, hx, hplace, hlink⟩
    by_cases hinfo : coll = .userInfo
    · rw [Backend.posting_userInfo hinfo] at hx
      cases hx
    · rw [Backend.board_posting hinfo] at hx
      obtain ⟨f, hf, rfl⟩ := Option.map_eq_some_iff.mp hx
      rw [postingOf, linkOf_cardOf] at hlink
      exact ⟨coll, id, f, hinfo, hf, atPlace_cardOf.mp hplace, hlink⟩
  · rintro ⟨coll, id, f, hinfo, hf, hplace, hlink⟩
    refine ⟨(coll, id), postingOf coll f, ?_, atPlace_cardOf.mpr hplace, ?_⟩
    · rw [Backend.board_posting hinfo, hf]
      rfl
    · rw [postingOf, linkOf_cardOf]
      exact hlink

/-- **A tap** writes the user down on the playlists at the coordinate. -/
theorem tap_finds (live : d.crashed = false)
    (hc : Completes (app P) may (running b l c (MapVC.calloutTapped p d)) ls s') :
    Board.Step (Misses (∃ r, may r false)) b.board (.find (AtPlace p) d.sharedUserInfo.email)
      s'.store.board := by
  rw [MapVC.calloutTapped_apply live] at hc
  have hend := hc.watched (I := fun x st locals js => x = none ∧ Tapping
      ((∃ r, may r false) ∨ Unopenable b p) b p d.sharedUserInfo.email c st (locals c) js) ?_ ?_ ?_
    (x := none) (List.Perm.refl _) ⟨rfl, ?_⟩
  · exact hend.2.finds misses_find.mpr
  · exact fun x st locals js js' hperm h => ⟨h.1, h.2.perm hperm⟩
  · rintro st locals j js st' locals' new ⟨h, -⟩ move
    cases h
  · exact fun x st locals j js st' locals' new h move => ⟨h.1, h.2.advance Or.inl Or.inr move⟩
  · refine ⟨?_, fun _ _ => rfl, fun _ _ _ => Or.inl rfl, fun j hj => ?_, fun coll id f found hf => ?_⟩
    · rw [running_locals, Function.update_self]
    · rcases List.mem_pair.mp hj with rfl | rfl
      · exact .asking .masterPlaylists (by decide)
      · exact .asking .userPlaylists (by decide)
    · refine Or.inr (Or.inr ⟨_, ?_, Or.inl rfl⟩)
      cases coll with
      | masterPlaylists => exact List.mem_cons_self
      | userPlaylists => exact List.mem_cons_of_mem _ List.mem_cons_self
      | userInfo => exact absurd rfl hf.playlist

end SpotiFriend

import SpotiFriend.Async.Jobs
import SpotiFriend.Async.Run
import SpotiFriend.Spec.Actions
import SpotiFriend.Spec.Documents

/-!
# A pin stands for one playlist

An annotation does not keep the ID of its playlist: the tap and the picture find the
playlist again by its coordinate.  `Backend.At` says that a document lies at a coordinate,
`Spread` that no two playlists lie at the same one.

Main results:

* `step_spread`, `spread_of_run`: long presses and clicks keep the playlists spread when
  every accepted click takes a free coordinate;
* `step_pin`: at a pin with one playlist, taps and pictures have to do with that playlist
  only;
* `pin_of_run`: the two together;
* `pin_shared`: two clicks without a long press put two playlists under one pin.
-/

namespace SpotiFriend

open Async MapVC

/-- The document lies at the coordinate, by the numbers that its pin is put at. -/
def Backend.At (b : Backend) (coll : CollectionName) (id : ℕ) (p : Coordinate) : Prop :=
  (b.field coll id .latitude).bind Value.asDouble = some p.latitude ∧
    (b.field coll id .longitude).bind Value.asDouble = some p.longitude

/-- No two playlists lie at the same coordinate. -/
def Backend.Spread (b : Backend) : Prop :=
  ∀ coll id coll' id' p, coll ≠ .userInfo → coll' ≠ .userInfo → b.At coll id p →
    b.At coll' id' p → coll = coll' ∧ id = id'

/-- Nothing is in flight, there are no playlists of users, and the master playlists lie at
different coordinates. -/
structure Unplaced (s : State) : Prop where
  quiet : s.jobs = []
  nobody : ∀ id, s.store.doc? .userPlaylists id = none
  masters : ∀ id id' p, s.store.At .masterPlaylists id p → s.store.At .masterPlaylists id' p →
    id = id'

/-! ### Placing playlists -/

def placing : Label → Bool
  | .event _ (.mapLongPressed _ _) | .event _ (.addPlaylistClicked _)
  | .event _ (.editText _ _ _) => true
  | .event _ _ => false
  | _ => true

def willPlace (p : Coordinate) : Job → Bool
  | ⟨_, .addPlaylist _ _ _ p' _, none⟩ => p' = p
  | _ => false

def lies (p : Coordinate) (f : Fields) : Bool :=
  getDouble f .latitude = some p.latitude && getDouble f .longitude = some p.longitude

def free (s : State) (p : Coordinate) : Bool :=
  (s.store.getDocuments (.all .masterPlaylists)).all (fun doc => !lies p doc.data) &&
    (s.store.getDocuments (.all .userPlaylists)).all (fun doc => !lies p doc.data) &&
    s.jobs.all (fun j => !willPlace p j)

/-- The same, where every accepted click takes a free coordinate. -/
def placingApart (s : State) (ℓ : Label) : Bool :=
  placing ℓ && match ℓ with
    | .event c (.addPlaylistClicked vc) =>
      !AddPlaylistVC.accepts (s.locals c) vc || free s ((s.locals c).chosen vc)
    | _ => true

inductive Placing (b : Backend) : Job → Prop
  | adding (c : ℕ) (title author email : String) (p : Coordinate) (link : String)
      (nobody : ∀ coll id, coll ≠ .userInfo → ¬ b.At coll id p) :
      Placing b ⟨c, .addPlaylist title author email p link, none⟩
  | added (c : ℕ) (title author email : String) (p : Coordinate) (link : String) (reply) :
      Placing b ⟨c, .addPlaylist title author email p link, some reply⟩
  | asking (c : ℕ) (email : String) (n : ℤ) (reply) :
      Placing b ⟨c, .createdUserInfo email n, reply⟩
  | counting (c : ℕ) (id : ℕ) (n : ℤ) (reply) : Placing b ⟨c, .storeCreated id n, reply⟩

def ApartFrom (j j' : Job) : Prop := ∀ p, ¬ (willPlace p j = true ∧ willPlace p j' = true)

structure Spreading (s : State) : Prop where
  spread : s.store.Spread
  jobs : ∀ j ∈ s.jobs, Placing s.store j
  pairs : s.jobs.Pairwise ApartFrom

variable {P : Platform} {s s₀ s₁ t t' s' : State} {ℓ : Label} {b b' : Backend} {j : Job}

theorem mem_atCoordinate {coll : CollectionName} {p : Coordinate} {doc : Doc}
    (h : doc ∈ b.getDocuments (.atCoordinate coll p)) : b.At coll doc.id p := by
  obtain ⟨hlat, hlong⟩ := Query.holds_atCoordinate.mp (Backend.mem_getDocuments.mp h).2
  rw [← Backend.field_of_mem h] at hlat hlong
  exact ⟨congrArg (·.bind Value.asDouble) hlat, congrArg (·.bind Value.asDouble) hlong⟩

theorem not_at {coll : CollectionName} {p : Coordinate}
    (h : ∀ doc ∈ b.getDocuments (.all coll), lies p doc.data = false) (id : ℕ) : ¬ b.At coll id p := by
  rintro ⟨hlat, hlong⟩
  rw [Backend.field] at hlat hlong
  cases hf : b.doc? coll id with
  | none =>
    rw [hf] at hlat
    cases hlat
  | some f =>
    rw [hf] at hlat hlong
    have hmem : (⟨id, f⟩ : Doc) ∈ b.getDocuments (.all coll) := Backend.mem_getDocuments.mpr ⟨hf, rfl⟩
    have hlies : lies p f = true := Bool.and_eq_true_iff.mpr ⟨decide_eq_true hlat, decide_eq_true hlong⟩
    rw [h _ hmem] at hlies
    cases hlies

theorem free_iff {p : Coordinate} (h : free s p = true) :
    (∀ coll id, coll ≠ .userInfo → ¬ s.store.At coll id p) ∧
      ∀ j ∈ s.jobs, willPlace p j = false := by
  simp only [free, Bool.and_eq_true, List.all_eq_true, Bool.not_eq_true'] at h
  obtain ⟨⟨hmaster, huser⟩, hjobs⟩ := h
  refine ⟨fun coll id hcoll => ?_, hjobs⟩
  cases coll with
  | masterPlaylists => exact not_at hmaster id
  | userPlaylists => exact not_at huser id
  | userInfo => exact absurd rfl hcoll

theorem Placing.frame (h : Placing b j)
    (hat : ∀ coll id p, coll ≠ .userInfo → willPlace p j = true → b'.At coll id p → b.At coll id p) :
    Placing b' j := by
  cases h with
  | adding c title author email p link nobody =>
    refine .adding c title author email p link (fun coll id hcoll hp => nobody coll id hcoll ?_)
    exact hat coll id p hcoll (decide_eq_true rfl) hp
  | added c title author email p link reply => exact .added c title author email p link reply
  | asking c email n reply => exact .asking c email n reply
  | counting c id n reply => exact .counting c id n reply

theorem Placing.effect (h : Placing b j) (hspread : b.Spread) (m : ℤ) (waiting : j.reply = none) :
    (j.request.operation.exec P m b).1.Spread ∧
    Placing (j.request.operation.exec P m b).1 (j.answer (j.request.operation.exec P m b).2) ∧
    ∀ i, Placing b i → ApartFrom j i → Placing (j.request.operation.exec P m b).1 i := by
  cases h with
  | adding c title author email p link nobody =>
    -- what lies somewhere lay there before, or it is the new playlist
    have hat : ∀ coll id p', ((Request.addPlaylist title author email p link).operation.exec P m
        b).1.At coll id p' →
        coll = .userPlaylists ∧ id = (b.firestore .userPlaylists).next ∧ p' = p ∨
          b.At coll id p' := by
      rintro coll id p' ⟨hlat, hlong⟩
      rw [Backend.field, doc?_addDocument] at hlat hlong
      split at hlat
      · next hnew =>
        rw [if_pos hnew] at hlong
        refine Or.inl ⟨hnew.1, hnew.2, ?_⟩
        have h₁ : p.latitude = p'.latitude := by
          simpa [Request.playlistDict, Entry.resolve] using hlat
        have h₂ : p.longitude = p'.longitude := by
          simpa [Request.playlistDict, Entry.resolve] using hlong
        cases p
        cases p'
        cases h₁
        cases h₂
        rfl
      · next hold =>
        rw [if_neg hold] at hlong
        exact Or.inr ⟨hlat, hlong⟩
    refine ⟨?_, .added c title author email p link _, fun i hi hapart => hi.frame ?_⟩
    · intro coll id coll' id' p' hcoll hcoll' h₁ h₂
      rcases hat coll id p' h₁ with ⟨rfl, rfl, rfl⟩ | hold₁
      · rcases hat coll' id' p' h₂ with ⟨rfl, rfl, -⟩ | hold₂
        · exact ⟨rfl, rfl⟩
        · exact absurd hold₂ (nobody coll' id' hcoll')
      · rcases hat coll' id' p' h₂ with ⟨rfl, rfl, rfl⟩ | hold₂
        · exact absurd hold₁ (nobody coll id hcoll)
        · exact hspread coll id coll' id' p' hcoll hcoll' hold₁ hold₂
    · intro coll id p' _ hwill hp'
      rcases hat coll id p' hp' with ⟨-, -, rfl⟩ | hp'
      · exact absurd ⟨decide_eq_true rfl, hwill⟩ (hapart p')
      · exact hp'
  | asking c email n reply =>
    exact ⟨hspread, .asking c email n _, fun i hi _ => hi⟩
  | counting c id n reply =>
    have hfield : ∀ coll id' k, k ≠ .totalPlaylistsCreated →
        ((Request.storeCreated id n).operation.exec P m b).1.field coll id' k = b.field coll id' k :=
      fun coll id' k hk => field_setData_of_absent (by simp [hk])
    have hat : ∀ coll id' p, ((Request.storeCreated id n).operation.exec P m b).1.At coll id' p →
        b.At coll id' p := by
      rintro coll id' p ⟨hlat, hlong⟩
      rw [hfield _ _ _ (by simp)] at hlat hlong
      exact ⟨hlat, hlong⟩
    exact ⟨fun coll id' coll' id'' p h₁ h₂ hp hp' =>
      hspread coll id' coll' id'' p h₁ h₂ (hat coll id' p hp) (hat coll' id'' p hp'),
      .counting c id n _, fun i hi _ => hi.frame (fun coll id' p _ _ hp => hat coll id' p hp)⟩
  | added => cases waiting

theorem willPlace_answer (j : Job) (a : Except String j.request.Answer) (p : Coordinate) :
    willPlace p (j.answer a) = false := by
  obtain ⟨c, r, reply⟩ := j
  cases r <;> rfl

theorem Placing.fail (h : Placing b j) (waiting : j.reply = none) (err : String) :
    Placing b (j.answer (.error err)) := by
  cases h with
  | adding c title author email p link nobody => exact .added c title author email p link _
  | asking c email n reply => exact .asking c email n _
  | counting c id n reply => exact .counting c id n _
  | added => cases waiting

theorem Placing.deliver (h : Placing b j) {d : Device} (m : ℤ) {a : Except String j.request.Answer}
    (answered : j.reply = some a) :
    ∀ r ∈ (resume P j.request m a d).2, ∃ id n, r = .storeCreated id n := by
  cases h with
  | asking c email n reply =>
    intro r hr
    have hissues : Issues (fun _ => ()) () (fun r => ∃ id n, r = .storeCreated id n)
        (AddPlaylistVC.createdUserInfoReply n a) := by
      cases a with
      | error e => exact Issues.skip
      | ok docs =>
        rw [AddPlaylistVC.createdUserInfoReply]
        split
        · exact Issues.forEach (fun _ _ _ => rfl) (fun doc _ => Issues.issue ⟨doc.id, n, rfl⟩)
        · exact Issues.skip
    exact hissues d rfl r hr
  | added c title author email p link reply =>
    cases a with
    | ok _ => exact List.forall_mem_nil _
    | error e => exact List.forall_mem_nil _
  | counting c id n reply =>
    cases a with
    | ok _ => exact List.forall_mem_nil _
    | error e => exact List.forall_mem_nil _
  | adding => cases answered

theorem apartFrom_of_ne {c : ℕ} {r : Request}
    (h : ∀ title author email p link, r ≠ .addPlaylist title author email p link) :
    ApartFrom j (.issue c r) := by
  rintro p ⟨-, hwill⟩
  cases r with
  | addPlaylist title author email p link => exact h title author email p link rfl
  | _ => cases hwill

theorem placing_start {c : ℕ} {e : Event} (guard : placingApart s (.event c e) = true)
    (live : (s.locals c).crashed = false) :
    Leaves (Placing s.store) ApartFrom s.jobs c (start e (s.locals c)).2 := by
  obtain ⟨hlabel, hclick⟩ := Bool.and_eq_true_iff.mp guard
  have hnothing : ∀ {rs : List Request}, rs = [] →
      Leaves (Placing s.store) ApartFrom s.jobs c rs := by
    rintro rs rfl
    exact .nil
  cases e with
  | addPlaylistClicked vc =>
    by_cases haccepted : AddPlaylistVC.accepts (s.locals c) vc = true
    · simp only [haccepted, Bool.not_true, Bool.false_or] at hclick
      obtain ⟨hnobody, hnone⟩ := free_iff hclick
      rw [start, AddPlaylistVC.addPlaylistClicked_accepted live haccepted]
      refine ⟨fun r hr => ?_, List.pairwise_pair.mpr (apartFrom_of_ne (by simp)), fun i hi r hr => ?_⟩
      · rcases List.mem_pair.mp hr with rfl | rfl
        · exact .adding _ _ _ _ _ _ hnobody
        · exact .asking _ _ _ none
      · rcases List.mem_pair.mp hr with rfl | rfl
        · rintro p ⟨hi', hwill⟩
          obtain rfl : (s.locals c).chosen vc = p := of_decide_eq_true hwill
          rw [hnone i hi] at hi'
          cases hi'
        · exact apartFrom_of_ne (by simp)
    · obtain ⟨l, hrejected⟩ :=
        AddPlaylistVC.addPlaylistClicked_rejected (Bool.eq_false_iff.mpr haccepted)
      exact hnothing (congrArg Prod.snd hrejected)
  | mapLongPressed vc coords =>
    rw [start, AddPlaylistVC.mapLongPressed, Action.andThen_of_live (by exact live)]
    exact hnothing rfl
  | editText vc field text => exact hnothing rfl
  | _ => cases hlabel

/-- **One move** of placing playlists at free coordinates keeps them spread. -/
theorem step_spread (h : Spreading s) (guard : placingApart s ℓ = true)
    (move : Step (app P) s ℓ s') : Spreading s' := by
  have hkept : (∀ j ∈ s'.jobs, Placing s'.store j) ∧ s'.jobs.Pairwise ApartFrom := by
    refine move.jobs_pairwise (fun hxy p hw => hxy p hw.symm)
      (fun {j _ a} _ _ p hw => absurd hw.1 (by rw [willPlace_answer j a]; exact Bool.false_ne_true))
      h.jobs h.pairs ?_ ?_ ?_ ?_
    · rintro c e rfl live
      exact placing_start guard (by simpa using live)
    · intro i j m _ hj waiting
      obtain ⟨-, hself, hothers⟩ := (h.jobs j hj).effect (P := P) h.spread m waiting
      exact ⟨hself, fun j' hj' => hothers j' (h.jobs j' hj')⟩
    · intro i j err _ hj waiting
      exact (h.jobs j hj).fail waiting err
    · intro i j m a _ hj answered _
      have hrs := (h.jobs j (List.mem_of_getElem? hj)).deliver (P := P) (d := s.locals j.client) m
        answered
      refine .of_forall (fun r hr => ?_) (fun r hr i => ?_)
      · obtain ⟨id, n, rfl⟩ := hrs r hr
        exact .counting _ id n none
      · obtain ⟨id, n, rfl⟩ := hrs r hr
        exact apartFrom_of_ne (by simp)
  refine ⟨?_, hkept.1, hkept.2⟩
  cases move with
  | @effect js₁ js₂ j m split waiting =>
    exact ((h.jobs j (mem_of_split split)).effect h.spread m waiting).1
  | event | fail | deliver => exact h.spread

theorem Unplaced.spreading (h : Unplaced s) : Spreading s := by
  have hmaster : ∀ {coll id p}, coll ≠ .userInfo → s.store.At coll id p →
      coll = .masterPlaylists := by
    intro coll id p hcoll hp
    cases coll with
    | masterPlaylists => rfl
    | userPlaylists =>
      have hlat := hp.1
      rw [Backend.field, h.nobody id] at hlat
      cases hlat
    | userInfo => exact absurd rfl hcoll
  refine ⟨?_, ?_, ?_⟩
  · intro coll id coll' id' p hcoll hcoll' hp hp'
    obtain rfl := hmaster hcoll hp
    obtain rfl := hmaster hcoll' hp'
    exact ⟨rfl, h.masters id id' p hp hp'⟩
  · rw [h.quiet]
    exact List.forall_mem_nil _
  · rw [h.quiet]
    exact .nil

/-- The playlists are spread in every state that placing at free coordinates reaches. -/
theorem spread_of_run {ls : List Label} (hs : Unplaced s)
    (h : Run (app P) (fun s ℓ => placingApart s ℓ) s ls s') : s'.store.Spread :=
  (h.invariant (fun _ _ _ hI guard move => step_spread hI guard move) hs.spreading).spread

/-! ### At a pin -/

/-- Taps and pictures of a pin at the coordinate. -/
def atPin (p : Coordinate) : Label → Bool
  | .event _ (.calloutTapped p') | .event _ (.viewFor _ p') => p' = p
  | .event _ _ => false
  | _ => true

/-- The picture is that of a user with the email that the playlist `f` names. -/
def Backend.AuthorPicture (b : Backend) (f : Fields) (url : String) : Prop :=
  ∃ email id, getString f .email = some email ∧
    b.field .userInfo id .email = some (.string email) ∧
    b.field .userInfo id .profilePicURL = some (.string url)

/-- Only the playlist `id₀`, with the fields `f₀` at the beginning, lies at the coordinate,
and nobody else's `hasFound` has changed. -/
structure OnePin (coll₀ : CollectionName) (id₀ : ℕ) (p : Coordinate) (f₀ : Fields)
    (b₀ b : Backend) : Prop where
  only : ∀ coll id, coll ≠ .userInfo → b.At coll id p → coll = coll₀ ∧ id = id₀
  link : b.field coll₀ id₀ .spotifyLink = f₀ .spotifyLink
  email : b.field coll₀ id₀ .email = f₀ .email
  untouched : ∀ coll id, (coll = coll₀ → id ≠ id₀) →
    b.field coll id .hasFound = b₀.field coll id .hasFound

structure SeenAt (f₀ : Fields) (b : Backend) (d₀ d : Device) : Prop where
  opened : ∃ l, d.opened = d₀.opened ++ l ∧ ∀ x ∈ l, linkOf f₀ = .string x
  pinImages : ∃ l, d.pinImages = d₀.pinImages ++ l ∧ ∀ x ∈ l, b.AuthorPicture f₀ x.2

inductive Pinned (coll₀ : CollectionName) (id₀ : ℕ) (p : Coordinate) (f₀ : Fields) (b : Backend) :
    Job → Prop
  | tapped (c : ℕ) (coll : CollectionName) (playlists : coll ≠ .userInfo) :
      Pinned coll₀ id₀ p f₀ b ⟨c, .checkPlaylists coll p, none⟩
  | checked (c : ℕ) (coll : CollectionName) (reply : Except String (List Doc))
      (shown : ∀ docs, reply = .ok docs → ∀ doc ∈ docs, coll = coll₀ ∧ doc.id = id₀ ∧
        linkOf doc.data = linkOf f₀) :
      Pinned coll₀ id₀ p f₀ b ⟨c, .checkPlaylists coll p, some reply⟩
  | marking (c : ℕ) (l : List String) (email : String) (reply) :
      Pinned coll₀ id₀ p f₀ b ⟨c, .storeHasFound coll₀ id₀ l email, reply⟩
  | asking (c : ℕ) (email : String) (reply) :
      Pinned coll₀ id₀ p f₀ b ⟨c, .foundUserInfo email, reply⟩
  | counting (c : ℕ) (id : ℕ) (n : ℤ) (reply) :
      Pinned coll₀ id₀ p f₀ b ⟨c, .storeFound id n, reply⟩
  | viewing (c : ℕ) (pin : ℕ) : Pinned coll₀ id₀ p f₀ b ⟨c, .viewForPlaylist pin p, none⟩
  | viewed (c : ℕ) (pin : ℕ) (reply : Except String (List Doc))
      (shown : ∀ docs, reply = .ok docs → ∀ doc ∈ docs, doc.data .email = f₀ .email) :
      Pinned coll₀ id₀ p f₀ b ⟨c, .viewForPlaylist pin p, some reply⟩
  | author (c : ℕ) (pin : ℕ) (email : String) (his : getString f₀ .email = some email) :
      Pinned coll₀ id₀ p f₀ b ⟨c, .viewForUserInfo pin email, none⟩
  | authored (c : ℕ) (pin : ℕ) (email : String) (reply : Except String (List Doc))
      (shown : ∀ docs, reply = .ok docs → ∀ doc ∈ docs, ∀ url,
        getString doc.data .profilePicURL = some url → b.AuthorPicture f₀ url) :
      Pinned coll₀ id₀ p f₀ b ⟨c, .viewForUserInfo pin email, some reply⟩

/-- No field is changed but `hasFound` of the playlist and the counters of finds. -/
structure Touches (coll₀ : CollectionName) (id₀ : ℕ) (b b' : Backend) : Prop where
  others : ∀ coll id k, k ≠ .hasFound → k ≠ .totalPlaylistsFound →
    b'.field coll id k = b.field coll id k
  lists : ∀ coll id, (coll = coll₀ → id ≠ id₀) → b'.field coll id .hasFound =
    b.field coll id .hasFound

section

variable {coll₀ : CollectionName} {id₀ : ℕ} {p : Coordinate} {f₀ : Fields} {b₀ : Backend}
  {d₀ d : Device}

theorem Touches.refl : Touches coll₀ id₀ b b := ⟨fun _ _ _ _ _ => rfl, fun _ _ _ => rfl⟩

theorem Touches.authorPicture (h : Touches coll₀ id₀ b b') {url : String}
    (hp : b.AuthorPicture f₀ url) : b'.AuthorPicture f₀ url := by
  obtain ⟨email, id, he, hemail, hurl⟩ := hp
  refine ⟨email, id, he, ?_, ?_⟩
  · rw [h.others _ _ _ (by simp) (by simp), hemail]
  · rw [h.others _ _ _ (by simp) (by simp), hurl]

theorem OnePin.frame (h : OnePin coll₀ id₀ p f₀ b₀ b) (ht : Touches coll₀ id₀ b b') :
    OnePin coll₀ id₀ p f₀ b₀ b' := by
  refine ⟨?_, ?_, ?_, ?_⟩
  · rintro coll id hcoll ⟨hlat, hlong⟩
    rw [ht.others _ _ _ (by simp) (by simp)] at hlat hlong
    exact h.only coll id hcoll ⟨hlat, hlong⟩
  · rw [ht.others _ _ _ (by simp) (by simp), h.link]
  · rw [ht.others _ _ _ (by simp) (by simp), h.email]
  · intro coll id hne
    rw [ht.lists coll id hne, h.untouched coll id hne]

theorem SeenAt.frame (h : SeenAt f₀ b d₀ d) (ht : Touches coll₀ id₀ b b') : SeenAt f₀ b' d₀ d := by
  obtain ⟨l, hl, hall⟩ := h.pinImages
  exact ⟨h.opened, l, hl, fun x hx => ht.authorPicture (hall x hx)⟩

theorem Pinned.frame (h : Pinned coll₀ id₀ p f₀ b j) (ht : Touches coll₀ id₀ b b') :
    Pinned coll₀ id₀ p f₀ b' j := by
  cases h with
  | tapped c coll playlists => exact .tapped c coll playlists
  | checked c coll reply shown => exact .checked c coll reply shown
  | marking c l email reply => exact .marking c l email reply
  | asking c email reply => exact .asking c email reply
  | counting c id n reply => exact .counting c id n reply
  | viewing c pin => exact .viewing c pin
  | viewed c pin reply shown => exact .viewed c pin reply shown
  | author c pin email his => exact .author c pin email his
  | authored c pin email reply shown =>
    exact .authored c pin email reply
      (fun docs hdocs doc hdoc url hurl => ht.authorPicture (shown docs hdocs doc hdoc url hurl))

theorem Pinned.fail (h : Pinned coll₀ id₀ p f₀ b j) (waiting : j.reply = none) (err : String) :
    Pinned coll₀ id₀ p f₀ b (j.answer (.error err)) := by
  cases h with
  | tapped c coll playlists => exact .checked c coll _ (fun _ hdocs => by cases hdocs)
  | marking c l email reply => exact .marking c l email _
  | asking c email reply => exact .asking c email _
  | counting c id n reply => exact .counting c id n _
  | viewing c pin => exact .viewed c pin _ (fun _ hdocs => by cases hdocs)
  | author c pin email his => exact .authored c pin email _ (fun _ hdocs => by cases hdocs)
  | checked | viewed | authored => cases waiting

theorem OnePin.shown (h : OnePin coll₀ id₀ p f₀ b₀ b) {coll : CollectionName}
    (hcoll : coll ≠ .userInfo) {doc : Doc} (hdoc : doc ∈ b.getDocuments (.atCoordinate coll p)) :
    coll = coll₀ ∧ doc.id = id₀ ∧ linkOf doc.data = linkOf f₀ ∧ doc.data .email = f₀ .email := by
  obtain ⟨rfl, rfl⟩ := h.only coll doc.id hcoll (mem_atCoordinate hdoc)
  refine ⟨rfl, rfl, ?_, (Backend.field_of_mem hdoc .email).symm.trans h.email⟩
  rw [linkOf, linkOf, ← h.link, ← Backend.field_of_mem hdoc]
  rfl

theorem Pinned.effect (h : Pinned coll₀ id₀ p f₀ b j) (hpin : OnePin coll₀ id₀ p f₀ b₀ b) (m : ℤ)
    (waiting : j.reply = none) :
    Touches coll₀ id₀ b (j.request.operation.exec P m b).1 ∧
    Pinned coll₀ id₀ p f₀ (j.request.operation.exec P m b).1
      (j.answer (j.request.operation.exec P m b).2) := by
  cases h with
  | tapped c coll playlists =>
    refine ⟨.refl, .checked c coll _ (fun docs hdocs doc hdoc => ?_)⟩
    cases hdocs
    obtain ⟨h₁, h₂, h₃, -⟩ := hpin.shown playlists hdoc
    exact ⟨h₁, h₂, h₃⟩
  | marking c l email reply =>
    refine ⟨⟨fun coll id k hk _ => ?_, fun coll id hne => ?_⟩, .marking c l email _⟩
    · exact field_setData_of_absent (by simp [hk])
    · exact field_setData_of_ne hne
  | asking c email reply => exact ⟨.refl, .asking c email _⟩
  | counting c id n reply =>
    refine ⟨⟨fun coll id k _ hk => ?_, fun coll id hne => ?_⟩, .counting c id n _⟩
    · exact field_setData_of_absent (by simp [hk])
    · exact field_setData_of_absent (by simp)
  | viewing c pin =>
    refine ⟨.refl, .viewed c pin _ (fun docs hdocs doc hdoc => ?_)⟩
    cases hdocs
    obtain ⟨-, -, -, hemail⟩ := hpin.shown (by simp) hdoc
    exact hemail
  | author c pin email his =>
    refine ⟨.refl, .authored c pin email _ (fun docs hdocs doc hdoc url hurl => ?_)⟩
    cases hdocs
    obtain ⟨v, hv, hvs⟩ := Option.bind_eq_some_iff.mp hurl
    obtain rfl := Value.asString_eq_some.mp hvs
    exact ⟨email, doc.id, his, (Backend.field_of_mem hdoc .email).trans
      (Query.holds_userInfo.mp (Backend.mem_getDocuments.mp hdoc).2),
      (Backend.field_of_mem hdoc .profilePicURL).trans hv⟩
  | checked | viewed | authored => cases waiting

/-- What was opened and shown before, and what is opened and shown now. -/
theorem SeenAt.appends (h : SeenAt f₀ b d₀ d) {a : Action}
    (hopened : Appends (fun d => d.opened) (fun x => linkOf f₀ = .string x) a)
    (hpictures : Appends (fun d => d.pinImages) (fun x => b.AuthorPicture f₀ x.2) a) :
    SeenAt f₀ b d₀ (a d).1 := by
  obtain ⟨l₁, hl₁, hall₁⟩ := h.opened
  obtain ⟨l₂, hl₂, hall₂⟩ := h.pinImages
  obtain ⟨l₁', hl₁', hall₁'⟩ := hopened d
  obtain ⟨l₂', hl₂', hall₂'⟩ := hpictures d
  refine ⟨⟨l₁ ++ l₁', hl₁'.trans (by rw [← List.append_assoc, ← hl₁]), fun x hx => ?_⟩,
    ⟨l₂ ++ l₂', hl₂'.trans (by rw [← List.append_assoc, ← hl₂]), fun x hx => ?_⟩⟩
  · exact (List.mem_append.mp hx).elim (hall₁ x) (hall₁' x)
  · exact (List.mem_append.mp hx).elim (hall₂ x) (hall₂' x)

/-- The SDK's part of a reply changes nothing that is seen at a pin. -/
theorem SeenAt.currentUser (h : SeenAt f₀ b d₀ d) (user : Option User) :
    SeenAt f₀ b d₀ { d with currentUser := user } := ⟨h.opened, h.pinImages⟩

/-- **The handlers** at a pin. -/
theorem Pinned.deliver (h : Pinned coll₀ id₀ p f₀ b j) (hd : SeenAt f₀ b d₀ d) (m : ℤ)
    {a : Except String j.request.Answer} (answered : j.reply = some a) :
    SeenAt f₀ b d₀ (resume P j.request m a d).1 ∧
    ∀ r ∈ (resume P j.request m a d).2, Pinned coll₀ id₀ p f₀ b (.issue j.client r) := by
  -- handlers that leave alone what is seen
  have hkeeps : ∀ {x : Action}, Keeps (fun d => d.opened) x → Keeps (fun d => d.pinImages) x →
      ∀ {d : Device}, SeenAt f₀ b d₀ d → SeenAt f₀ b d₀ (x d).1 :=
    fun h₁ h₂ _ hd => hd.appends (.of_keeps h₁) (.of_keeps h₂)
  cases h with
  | checked c coll reply shown =>
    cases answered
    constructor
    · refine (hd.currentUser _).appends ((checkPlaylists_opened coll reply).mono ?_)
        (.of_keeps (checkPlaylistsReply_keeps (fun _ _ _ _ => rfl)))
      rintro x ⟨docs, hdocs, doc, hdoc, hlink⟩
      rw [← (shown docs hdocs doc hdoc).2.2, hlink]
    · intro r hr
      cases reply with
      | error e => cases hr
      | ok docs =>
        obtain ⟨doc, hdoc, hfound⟩ :=
          List.mem_filterMap.mp ((checkPlaylists_requests coll docs d).subset hr)
        obtain ⟨l, -, -, rfl⟩ := found?_eq_some.mp hfound
        obtain ⟨rfl, rfl, -⟩ := shown docs rfl doc hdoc
        exact .marking c _ _ none
  | marking c l email reply =>
    refine ⟨hkeeps (.orAlert (fun _ _ => rfl) (fun _ _ => .issue _))
      (.orAlert (fun _ _ => rfl) (fun _ _ => .issue _)) (hd.currentUser _), fun r hr => ?_⟩
    cases a with
    | error e => cases hr
    | ok _ =>
      obtain rfl := List.mem_singleton.mp hr
      exact .asking c email none
  | asking c email reply =>
    refine ⟨hkeeps (.orAlert (fun _ _ => rfl) (fun _ _ => .forEach (fun _ _ _ => rfl)))
      (.orAlert (fun _ _ => rfl) (fun _ _ => .forEach (fun _ _ _ => rfl))) (hd.currentUser _),
      fun r hr => ?_⟩
    have hissues : Issues (fun _ => ()) () (fun r => ∃ id n, r = .storeFound id n)
        (foundUserInfoReply a) :=
      .orAlert (fun docs _ => .forEach (fun _ _ _ => rfl) (fun doc _ d _ r hr =>
        ⟨doc.id, d.sharedUserInfo.totalPlaylistsFound + 1, List.mem_singleton.mp hr⟩))
    obtain ⟨id, n, rfl⟩ := hissues d rfl r hr
    exact .counting c id n none
  | counting c id n reply =>
    refine ⟨hkeeps (.orAlert (fun _ _ => rfl) (fun _ _ _ => rfl))
      (.orAlert (fun _ _ => rfl) (fun _ _ _ => rfl)) (hd.currentUser _), fun r hr => ?_⟩
    cases a with
    | error e => cases hr
    | ok _ => cases hr
  | viewed c pin reply shown =>
    cases answered
    constructor
    · refine hkeeps ?_ ?_ (hd.currentUser _)
      · refine .orAlert (fun _ _ => rfl) (fun docs _ => .forEach (fun doc _ => ?_))
        cases getString doc.data .email with
        | none => exact .skip
        | some email => exact .issue _
      · refine .orAlert (fun _ _ => rfl) (fun docs _ => .forEach (fun doc _ => ?_))
        cases getString doc.data .email with
        | none => exact .skip
        | some email => exact .issue _
    · intro r hr
      obtain ⟨docs, hdocs, doc, hdoc, email, hemail, rfl⟩ := viewForPlaylist_requests pin reply d r hr
      refine .author c pin email ?_
      rw [getString, ← shown docs hdocs doc hdoc]
      exact hemail
  | authored c pin email reply shown =>
    cases answered
    constructor
    · refine (hd.currentUser _).appends (.of_keeps (viewForUserInfo_opened P pin reply))
        ((viewForUserInfo_pinImages P pin reply).mono ?_)
      rintro x ⟨docs, hdocs, doc, hdoc, hurl⟩
      exact shown docs hdocs doc hdoc x.2 hurl
    · intro r hr
      rw [show (resume P (.viewForUserInfo pin email) m reply d).2 = [] from
        viewForUserInfo_requests P pin reply d] at hr
      cases hr
  | tapped | viewing | author => cases answered

structure AtPin (coll₀ : CollectionName) (id₀ : ℕ) (p : Coordinate) (f₀ : Fields) (t s : State) :
    Prop where
  pin : OnePin coll₀ id₀ p f₀ t.store s.store
  seen : ∀ c, SeenAt f₀ s.store (t.locals c) (s.locals c)
  jobs : ∀ j ∈ s.jobs, Pinned coll₀ id₀ p f₀ s.store j

theorem Pinned.start {c : ℕ} {e : Event} (he : atPin p (.event c e) = true)
    (live : d.crashed = false) : (SpotiFriend.start e d).1 = d ∧
    ∀ r ∈ (SpotiFriend.start e d).2, Pinned coll₀ id₀ p f₀ b (.issue c r) := by
  cases e with
  | calloutTapped p' =>
    obtain rfl : p' = p := of_decide_eq_true he
    rw [SpotiFriend.start, calloutTapped_apply live]
    refine ⟨rfl, fun r hr => ?_⟩
    rcases List.mem_pair.mp hr with rfl | rfl
    · exact .tapped c _ (by simp)
    · exact .tapped c _ (by simp)
  | viewFor pin p' =>
    obtain rfl : p' = p := of_decide_eq_true he
    refine ⟨rfl, fun r hr => ?_⟩
    obtain rfl := List.mem_singleton.mp hr
    exact .viewing c pin
  | _ => cases he

/-- **One move** at a pin with one playlist has to do with that playlist only. -/
theorem step_pin (h : AtPin coll₀ id₀ p f₀ t s) (guard : atPin p ℓ = true)
    (move : Step (app P) s ℓ s') : AtPin coll₀ id₀ p f₀ t s' := by
  have hjobs : ∀ j ∈ s'.jobs, Pinned coll₀ id₀ p f₀ s'.store j := by
    refine move.jobs h.jobs ?_ ?_ ?_ ?_
    · rintro c e rfl live
      exact (Pinned.start (d := s.locals c) guard (by simpa using live)).2
    · intro js₁ j js₂ m _ split waiting
      obtain ⟨htouches, hself⟩ := (h.jobs j (mem_of_split split)).effect (P := P) h.pin m waiting
      exact ⟨hself, fun i hi => (h.jobs i ((rest_sublist split).subset hi)).frame htouches⟩
    · intro js₁ j js₂ err _ split waiting
      exact (h.jobs j (mem_of_split split)).fail waiting err
    · intro js₁ j js₂ m a _ split answered _
      exact ((h.jobs j (mem_of_split split)).deliver (h.seen j.client) m answered).2
  cases move with
  | event c e live =>
    obtain ⟨hsame, -⟩ : _ ∧ ∀ r ∈ (SpotiFriend.start e (s.locals c)).2,
        Pinned coll₀ id₀ p f₀ s.store (.issue c r) := Pinned.start guard (by simpa using live)
    refine ⟨h.pin, fun c' => ?_, hjobs⟩
    rw [State.proceed_locals, app_start, hsame, Function.update_eq_self]
    exact h.seen c'
  | @effect js₁ js₂ j m split waiting =>
    obtain ⟨htouches, -⟩ := (h.jobs j (mem_of_split split)).effect (P := P) h.pin m waiting
    exact ⟨h.pin.frame htouches, fun c => (h.seen c).frame htouches, hjobs⟩
  | fail j err split waiting => exact ⟨h.pin, h.seen, hjobs⟩
  | @deliver js₁ js₂ j m a split answered live =>
    have hseen := ((h.jobs j (mem_of_split split)).deliver (P := P) (h.seen j.client) m answered).1
    refine ⟨h.pin, fun c' => ?_, hjobs⟩
    rw [State.proceed_locals]
    by_cases hc : c' = j.client
    · subst hc
      rw [Function.update_self]
      exact hseen
    · rw [Function.update_of_ne hc]
      exact h.seen c'

end

/-- What a device does at a pin has to do with the playlist `id₀` of fields `f₀` only:
between `t` and `t'` it opens nothing but its link, changes nobody else's `hasFound`, and
shows no picture but its author's. -/
structure OneForPin (coll₀ : CollectionName) (id₀ : ℕ) (f₀ : Fields) (t t' : State) : Prop where
  opened : ∀ c, ∃ l, (t'.locals c).opened = (t.locals c).opened ++ l ∧
    ∀ x ∈ l, linkOf f₀ = .string x
  untouched : ∀ coll id, (coll = coll₀ → id ≠ id₀) →
    t'.store.field coll id .hasFound = t.store.field coll id .hasFound
  pictures : ∀ c, ∃ l, (t'.locals c).pinImages = (t.locals c).pinImages ++ l ∧
    ∀ x ∈ l, t'.store.AuthorPicture f₀ x.2

/-- `addStaticAnnotations` or `addUserAnnotations` puts the annotation on a map for the
playlist. -/
def Annotated (P : Platform) (coll : CollectionName) (doc : Doc) (a : Annotation) : Prop :=
  ∃ map now d, (match coll with
    | .masterPlaylists => addStaticAnnotationsReply map (.ok [doc])
    | _ => addUserAnnotationsReply P map now (.ok [doc]) : Action) d |>.1.annotations map =
      d.annotations map ++ [a]

theorem Annotated.annotationOf {coll : CollectionName} {doc : Doc} {a : Annotation}
    (h : Annotated P coll doc a) : annotationOf doc.data = some a := by
  obtain ⟨map, now, d, h⟩ := h
  have hputs : ∀ {x : Action}, Appends (fun d => d.annotations map) (fun a => ∃ docs,
      (.ok [doc] : Except String (List Doc)) = .ok docs ∧
        ∃ doc' ∈ docs, MapVC.annotationOf doc'.data = some a) x →
      (x d).1.annotations map = d.annotations map ++ [a] →
      MapVC.annotationOf doc.data = some a := by
    intro x hx hd
    obtain ⟨l, hl, hall⟩ := hx d
    obtain rfl : l = [a] := List.append_cancel_left (hl.symm.trans hd)
    obtain ⟨docs, hdocs, doc', hdoc', ha⟩ := hall a List.mem_cons_self
    cases hdocs
    rw [List.mem_singleton.mp hdoc'] at ha
    exact ha
  cases coll with
  | masterPlaylists => exact hputs (addStaticAnnotations_annotations map _) h
  | userPlaylists => exact hputs (addUserAnnotations_annotations P map now _) h
  | userInfo => exact hputs (addUserAnnotations_annotations P map now _) h

/-- **A pin stands for one playlist** when every accepted click takes a free coordinate:
then at the pin of any playlist, taps and pictures have to do with that playlist only. -/
theorem pin_of_run {ls₁ ls₂ : List Label} {coll : CollectionName} {id : ℕ} {f : Fields}
    {a : Annotation} (h₀ : Unplaced s₀) (h₁ : Run (app P) (fun s ℓ => placingApart s ℓ) s₀ ls₁ s₁)
    (hcoll : coll ≠ .userInfo) (hf : s₁.store.doc? coll id = some f)
    (ha : Annotated P coll ⟨id, f⟩ a)
    (hstore : t.store = s₁.store) (hquiet : t.jobs = [])
    (h₂ : Run (app P) (fun _ ℓ => atPin a.coordinate ℓ) t ls₂ t') : OneForPin coll id f t t' := by
  have hfield : ∀ k, t.store.field coll id k = f k := by
    intro k
    rw [hstore, Backend.field, hf]
    rfl
  -- the annotation is at the playlist's coordinate
  have hat : s₁.store.At coll id a.coordinate := by
    have hof : annotationOf f = some a := ha.annotationOf
    rw [← hstore, Backend.At, hfield, hfield]
    unfold annotationOf at hof
    split at hof
    · next _ _ lat long _ _ hlat hlong =>
      cases hof
      exact ⟨hlat, hlong⟩
    · cases hof
  have hspread := spread_of_run h₀ h₁
  have hstart : AtPin coll id a.coordinate f t t := by
    refine ⟨⟨?_, hfield _, hfield _, fun _ _ _ => rfl⟩, fun c =>
      ⟨⟨[], ?_, fun _ h => absurd h List.not_mem_nil⟩, ⟨[], ?_, fun _ h => absurd h List.not_mem_nil⟩⟩, ?_⟩
    · intro coll' id' hcoll' hp
      rw [hstore] at hp
      exact hspread coll' id' coll id a.coordinate hcoll' hcoll hp hat
    · exact (List.append_nil _).symm
    · exact (List.append_nil _).symm
    · rw [hquiet]
      exact fun _ h => absurd h List.not_mem_nil
  have hend := h₂.invariant (fun _ _ _ hI guard move => step_pin hI guard move) hstart
  exact ⟨fun c => (hend.seen c).opened, hend.pin.untouched, fun c => (hend.seen c).pinImages⟩

/-! ### A shared pin -/

def noPlaylists : State where
  store := .of [] [] [Dict.fields (Request.userDict "ann" "ann@mail.org" "secret") 0,
      Dict.fields (Request.userDict "bob" "bob@mail.org" "hidden") 0]
    [⟨"ann@mail.org", "secret"⟩, ⟨"bob@mail.org", "hidden"⟩]
  locals
    | 0 => { Device.atMap ⟨0, "ann@mail.org"⟩
        (Dict.fields (Request.userDict "ann" "ann@mail.org" "secret") 0) with
      text := fun _ field => match field with
        | .titleTextField => "Road"
        | .linkTextField => "https://open.spotify.com/playlist/1"
        | _ => "" }
    | 1 => { Device.atMap ⟨1, "bob@mail.org"⟩
        (Dict.fields (Request.userDict "bob" "bob@mail.org" "hidden") 0) with
      text := fun _ field => match field with
        | .titleTextField => "Rain"
        | .linkTextField => "https://open.spotify.com/playlist/2"
        | _ => "" }
    | _ => .launched
  jobs := []

theorem noPlaylists_unplaced : Unplaced noPlaylists where
  quiet := rfl
  nobody _ := rfl
  masters _ _ _ h := by
    cases h.1

/-- Both users create a playlist, the second one after a long press when `apart`. -/
def bothCreate (apart : Bool) : List Label :=
  (if apart then [.event 1 (.mapLongPressed 0 ⟨.fin 48, .fin 11⟩)] else []) ++
    [.event 0 (.addPlaylistClicked 0), .event 1 (.addPlaylistClicked 0), .effect 0 0, .effect 1 0,
      .effect 2 0, .effect 3 0, .deliver 0 0, .deliver 0 0, .deliver 0 0, .deliver 0 0, .effect 0 0,
      .effect 1 0, .deliver 0 0, .deliver 0 0]

def tapPin : List Label :=
  [.event 0 (.calloutTapped ⟨.fin 0, .fin 0⟩), .effect 1 0, .deliver 1 0]

def annsPin : Annotation := ⟨"Road", "ann", ⟨.fin 0, .fin 0⟩⟩

def here : Device := { Device.launched with userLocation := some ⟨.fin 0, .fin 0⟩ }

def getsAnnsPin (f : Fields) : Bool :=
  ((addUserAnnotationsReply .sample 0 0 (.ok [⟨0, f⟩])) here).1.annotations 0 = [annsPin]

theorem annotated_of_getsAnnsPin {f : Fields} (h : getsAnnsPin f = true) :
    Annotated .sample .userPlaylists ⟨0, f⟩ annsPin := ⟨0, 0, here, of_decide_eq_true h⟩

theorem pin_apart : ∃ s₁ f t',
    Run (app .sample) (fun s ℓ => placingApart s ℓ) noPlaylists (bothCreate true) s₁ ∧
    s₁.store.doc? .userPlaylists 0 = some f ∧
    Run (app .sample) (fun _ ℓ => atPin annsPin.coordinate ℓ) s₁ tapPin t' ∧
    (t'.locals 0).opened = ["https://open.spotify.com/playlist/1"] ∧
    OneForPin .userPlaylists 0 f s₁ t' := by
  obtain ⟨s₁, h₁, hend⟩ := Run.exists_of_run (P := app .sample) (G := placingApart)
    (s := noPlaylists) (l := bothCreate true)
    (Q := fun s₁ => s₁.jobs.isEmpty && (s₁.store.doc? .userPlaylists 0).any getsAnnsPin &&
      (run (app .sample) (fun _ ℓ => atPin annsPin.coordinate ℓ) s₁ tapPin).any
        (fun t' => (t'.locals 0).opened = ["https://open.spotify.com/playlist/1"]))
    (by decide +kernel)
  obtain ⟨hend, htap⟩ := Bool.and_eq_true_iff.mp hend
  obtain ⟨hjobs, hdoc⟩ := Bool.and_eq_true_iff.mp hend
  obtain ⟨f, hf, hpin⟩ := (Option.any_eq_true ..).mp hdoc
  obtain ⟨t', h₂, hopened⟩ := Run.exists_of_run htap
  exact ⟨s₁, f, t', h₁, hf, h₂, of_decide_eq_true hopened,
    pin_of_run noPlaylists_unplaced h₁ (by simp) hf (annotated_of_getsAnnsPin hpin) rfl
      (List.isEmpty_iff.mp hjobs) h₂⟩

/-- **A shared pin**: neither user presses the map, both playlists are put at the initial
coordinate, and a tap on the pin of one opens the link of the other, too. -/
theorem pin_shared : Unplaced noPlaylists ∧ ∃ s₁ f t',
    Run (app .sample) (fun _ ℓ => placing ℓ) noPlaylists (bothCreate false) s₁ ∧
    s₁.jobs = [] ∧ s₁.store.doc? .userPlaylists 0 = some f ∧
    Annotated .sample .userPlaylists ⟨0, f⟩ annsPin ∧
    Run (app .sample) (fun _ ℓ => atPin annsPin.coordinate ℓ) s₁ tapPin t' ∧
    ¬ OneForPin .userPlaylists 0 f s₁ t' := by
  obtain ⟨s₁, h₁, hend⟩ := Run.exists_of_run (P := app .sample) (G := fun _ => placing)
    (s := noPlaylists) (l := bothCreate false)
    (Q := fun s₁ => s₁.jobs.isEmpty && (s₁.locals 0).opened = [] &&
      (s₁.store.doc? .userPlaylists 0).any (fun f => getsAnnsPin f &&
        linkOf f = .string "https://open.spotify.com/playlist/1") &&
      (run (app .sample) (fun _ ℓ => atPin annsPin.coordinate ℓ) s₁ tapPin).any
        (fun t' => (t'.locals 0).opened =
          ["https://open.spotify.com/playlist/1", "https://open.spotify.com/playlist/2"]))
    (by decide +kernel)
  obtain ⟨hend, htap⟩ := Bool.and_eq_true_iff.mp hend
  obtain ⟨hend, hdoc⟩ := Bool.and_eq_true_iff.mp hend
  obtain ⟨hjobs, hnothing⟩ := Bool.and_eq_true_iff.mp hend
  obtain ⟨f, hf, hboth⟩ := (Option.any_eq_true ..).mp hdoc
  obtain ⟨hpin, hlink⟩ := Bool.and_eq_true_iff.mp hboth
  obtain ⟨t', h₂, hopened⟩ := Run.exists_of_run htap
  refine ⟨noPlaylists_unplaced, s₁, f, t', h₁, List.isEmpty_iff.mp hjobs, hf,
    annotated_of_getsAnnsPin hpin, h₂, fun hone => ?_⟩
  obtain ⟨l, hl, hall⟩ := hone.opened 0
  rw [of_decide_eq_true hopened, of_decide_eq_true hnothing, List.nil_append] at hl
  have hother := hall "https://open.spotify.com/playlist/2" (by rw [← hl]; simp)
  rw [of_decide_eq_true hlink] at hother
  exact absurd hother (by decide)

end SpotiFriend

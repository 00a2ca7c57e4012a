import SpotiFriend.Async.Jobs
import SpotiFriend.Async.Run
import SpotiFriend.Spec.Actions
import SpotiFriend.Spec.Documents

/-!
# The counter of created playlists

A click adds the playlist and starts, without waiting, the query for the user's document
and the write of the counter, whose new value is fixed at the click.  `Creating` lists
where a job of a click can stand, and `Ledger` is the balance: counter and writes still
to come on one side, playlists and additions still to come on the other.

Main results, for a client that only creates playlists and looks at the map:

* `step_ledger`: the balance changes by the calls that fail, and by nothing else;
* `totalPlaylistsCreated_iff`: so the counter is exact if and only if as many additions as
  counter calls fail, provided every click finds the singleton up to date;
* `totalPlaylistsCreated_lost`: without that proviso two clicks count once.
-/

namespace SpotiFriend

open Async SpotiFriend.Action

/-- The playlists that are there and were not before. -/
def addedPlaylists (b₀ b : Backend) : List Doc :=
  (b.firestore .userPlaylists).docs.filter (fun doc => (b₀.doc? .userPlaylists doc.id).isNone)

/-! ### The guard -/

def willCount : Job → Bool
  | ⟨_, .createdUserInfo _ _, none⟩ | ⟨_, .createdUserInfo _ _, some (.ok _)⟩
  | ⟨_, .storeCreated _ _, none⟩ => true
  | _ => false

/-- The moves of a client that fills in the form, creates playlists and looks at the map. -/
def creating (c : ℕ) : Label → Bool
  | .event c' e => c' = c && match e with
    | .addPlaylistClicked _ | .viewWillAppear | .editText _ _ _ | .mapLongPressed _ _ => true
    | _ => false
  | _ => true

/-- The same, where each accepted click finds the singleton in agreement with the document
`D` and no counter on its way. -/
def creatingUpToDate (c : ℕ) (u : String) (D : ℕ) (s : State) (ℓ : Label) : Bool :=
  creating c ℓ && match ℓ with
    | .event _ (.addPlaylistClicked vc) => !AddPlaylistVC.accepts (s.locals c) vc ||
      (s.locals c).sharedUserInfo.email = u &&
        (s.locals c).sharedUserInfo.totalPlaylistsCreated =
          s.store.counter D .totalPlaylistsCreated &&
        s.jobs.all (fun j => !willCount j)
    | _ => true

def isAddition : Request → Bool
  | .addPlaylist _ _ _ _ _ => true
  | _ => false

def isCounting : Request → Bool
  | .createdUserInfo _ _ | .storeCreated _ _ => true
  | _ => false

/-! ### The invariant -/

/-- Where a job in flight stands, and what is known there. -/
inductive Creating (c : ℕ) (u : String) (D : ℕ) (b : Backend) : Job → Prop
  | loading (email : String) (reply) : Creating c u D b ⟨c, .getUserInfo email, reply⟩
  | adding (title author : String) (p : Coordinate) (link : String) (reply) :
      Creating c u D b ⟨c, .addPlaylist title author u p link, reply⟩
  | asking (n : ℤ) (next : n = b.counter D .totalPlaylistsCreated + 1) :
      Creating c u D b ⟨c, .createdUserInfo u n, none⟩
  | asked (n : ℤ) (docs : List Doc) (next : n = b.counter D .totalPlaylistsCreated + 1)
      (mine : docs.map Store.Document.id = [D]) :
      Creating c u D b ⟨c, .createdUserInfo u n, some (.ok docs)⟩
  | refused (n : ℤ) (e : String) : Creating c u D b ⟨c, .createdUserInfo u n, some (.error e)⟩
  | counting (n : ℤ) (next : n = b.counter D .totalPlaylistsCreated + 1) :
      Creating c u D b ⟨c, .storeCreated D n, none⟩
  | counted (n : ℤ) (reply) : Creating c u D b ⟨c, .storeCreated D n, some reply⟩

def willAdd (j : Job) : Bool := j.reply.isNone && isAddition j.request

/-- Counter and counts to come, less the playlists added since `b₀` and those to come. -/
def balance (D : ℕ) (b₀ : Backend) (s : State) : ℤ :=
  s.store.counter D .totalPlaylistsCreated + s.jobs.countP willCount -
    (addedPlaylists b₀ s.store).length - s.jobs.countP willAdd

/-- The invariant of a run that begins with `b₀`. -/
structure Ledger (c : ℕ) (u : String) (D : ℕ) (b₀ : Backend) (s : State) : Prop where
  owner : Owner s.store u D
  jobs : ∀ j ∈ s.jobs, Creating c u D s.store j
  single : s.jobs.countP willCount ≤ 1
  fresh : (b₀.firestore .userPlaylists).next ≤ (s.store.firestore .userPlaylists).next
  mine : ∀ doc ∈ addedPlaylists b₀ s.store, doc.data .email = some (.string u)

variable {P : Platform} {c : ℕ} {u : String} {D : ℕ} {b b' b₀ : Backend} {s s' : State}
  {ℓ : Label} {j : Job}

theorem Creating.client (h : Creating c u D b j) : j.client = c := by
  cases h <;> rfl

/-- A change that leaves the counter alone where the job is going to write it. -/
theorem Creating.frame (h : Creating c u D b j)
    (hcounter : willCount j = true →
      b'.counter D .totalPlaylistsCreated = b.counter D .totalPlaylistsCreated) :
    Creating c u D b' j := by
  cases h with
  | loading email reply => exact .loading email reply
  | adding title author p link reply => exact .adding title author p link reply
  | asking n next => exact .asking n (by rw [hcounter rfl]; exact next)
  | asked n docs next mine => exact .asked n docs (by rw [hcounter rfl]; exact next) mine
  | refused n e => exact .refused n e
  | counting n next => exact .counting n (by rw [hcounter rfl]; exact next)
  | counted n reply => exact .counted n reply

/-- A job that takes effect: it goes on, the others are not disturbed, and the playlists
that are added carry the user's email. -/
structure CreatingEffect (c : ℕ) (u : String) (D : ℕ) (b₀ b b' : Backend) (j j' : Job) :
    Prop where
  self : Creating c u D b' j'
  others : ∀ i, Creating c u D b i → ¬ (willCount j = true ∧ willCount i = true) →
    Creating c u D b' i
  owner : Owner b' u D
  next : (b.firestore .userPlaylists).next ≤ (b'.firestore .userPlaylists).next
  mine : ∀ doc ∈ addedPlaylists b₀ b', doc ∈ addedPlaylists b₀ b ∨
    doc.data .email = some (.string u)
  balance : b'.counter D .totalPlaylistsCreated + (if willCount j' then 1 else 0) -
      (addedPlaylists b₀ b').length - (if willAdd j' then 1 else 0) =
    b.counter D .totalPlaylistsCreated + (if willCount j then 1 else 0) -
      (addedPlaylists b₀ b).length - (if willAdd j then 1 else 0)

theorem CreatingEffect.query {j' : Job} (howner : Owner b u D) (hself : Creating c u D b j')
    (hcount : willCount j' = willCount j) (hadd : willAdd j' = willAdd j) :
    CreatingEffect c u D b₀ b b j j' where
  self := hself
  others _ hi _ := hi
  owner := howner
  next := Nat.le_refl _
  mine _ hdoc := Or.inl hdoc
  balance := by rw [hcount, hadd]

section

variable {m : ℤ} {title author link : String} {p : Coordinate} {n : ℤ}

theorem addedPlaylists_add
    (hfresh : (b₀.firestore .userPlaylists).next ≤ (b.firestore .userPlaylists).next) :
    addedPlaylists b₀ ((Request.addPlaylist title author u p link).operation.exec P m b).1 =
      addedPlaylists b₀ b ++ [⟨(b.firestore .userPlaylists).next,
        (Request.playlistDict title author u p link).fields m⟩] := by
  have hnone : b₀.doc? .userPlaylists (b.firestore .userPlaylists).next = none :=
    (b₀.firestore .userPlaylists).vacant _ hfresh
  rw [addedPlaylists, Operation.exec, Backend.setCollection_firestore, Function.update_self,
    Store.Collection.docs_add, List.filter_append, addedPlaylists]
  simp [hnone]

theorem CreatingEffect.add (howner : Owner b u D)
    (hfresh : (b₀.firestore .userPlaylists).next ≤ (b.firestore .userPlaylists).next) :
    CreatingEffect c u D b₀ b ((Request.addPlaylist title author u p link).operation.exec P m b).1
      ⟨c, .addPlaylist title author u p link, none⟩
      ⟨c, .addPlaylist title author u p link, some (.ok ())⟩ := by
  have hinfo : ∀ id k, ((Request.addPlaylist title author u p link).operation.exec P m b).1.field
      .userInfo id k = b.field .userInfo id k := by
    intro id k
    rw [Backend.field, doc?_addDocument, if_neg (by simp)]
    rfl
  have hcounter : ((Request.addPlaylist title author u p link).operation.exec P m b).1.counter D
      .totalPlaylistsCreated = b.counter D .totalPlaylistsCreated := by
    rw [Backend.counter, hinfo]
    rfl
  refine ⟨.adding title author p link _, fun i hi _ => hi.frame (fun _ => hcounter),
    howner.frame (fun id => hinfo id .email), ?_, fun doc hdoc => ?_, ?_⟩
  · rw [Operation.exec, Backend.setCollection_firestore, Function.update_self,
      Store.Collection.next_add]
    exact Nat.le_succ _
  · rw [addedPlaylists_add hfresh, List.mem_append, List.mem_singleton] at hdoc
    rcases hdoc with hdoc | rfl
    · exact Or.inl hdoc
    · exact Or.inr (by simp [Request.playlistDict, Entry.resolve])
  · rw [hcounter, addedPlaylists_add hfresh, List.length_append, List.length_singleton]
    simp only [willCount, willAdd, isAddition, Option.isNone_some, Option.isNone_none,
      Bool.false_and, Bool.and_self, if_true, Bool.false_eq_true, if_false]
    omega

theorem CreatingEffect.count (howner : Owner b u D)
    (next : n = b.counter D .totalPlaylistsCreated + 1) :
    CreatingEffect c u D b₀ b ((Request.storeCreated D n).operation.exec P m b).1
      ⟨c, .storeCreated D n, none⟩ ⟨c, .storeCreated D n, some (.ok ())⟩ := by
  have hcounter : ((Request.storeCreated D n).operation.exec P m b).1.counter D
      .totalPlaylistsCreated = n := by
    rw [Backend.counter, field_setData, if_pos ⟨rfl, rfl⟩]
    simp [Entry.resolve]
  have hplaylists : ((Request.storeCreated D n).operation.exec P m b).1.firestore .userPlaylists =
      b.firestore .userPlaylists := by
    rw [Operation.exec, Backend.setCollection_firestore, Function.update_of_ne (by simp)]
  have hadded : addedPlaylists b₀ ((Request.storeCreated D n).operation.exec P m b).1 =
      addedPlaylists b₀ b := by
    rw [addedPlaylists, hplaylists]
    rfl
  refine ⟨.counted n _, fun i hi hnot => hi.frame (fun hi => absurd ⟨rfl, hi⟩ hnot),
    howner.frame (fun id => field_setData_of_absent (by simp)), by rw [hplaylists],
    fun doc hdoc => Or.inl (hadded ▸ hdoc), ?_⟩
  rw [hcounter, hadded, next]
  simp only [willCount, willAdd, isAddition, Option.isNone_some, Option.isNone_none,
    Bool.and_false, if_true, Bool.false_eq_true, if_false]
  omega

end

theorem Creating.effect (h : Creating c u D b j) (howner : Owner b u D)
    (hfresh : (b₀.firestore .userPlaylists).next ≤ (b.firestore .userPlaylists).next) (m : ℤ)
    (waiting : j.reply = none) : CreatingEffect c u D b₀ b (j.request.operation.exec P m b).1 j
      (j.answer (j.request.operation.exec P m b).2) := by
  cases h with
  | loading email reply =>
    obtain rfl : reply = none := waiting
    exact .query howner (.loading email _) rfl rfl
  | adding title author p link reply =>
    obtain rfl : reply = none := waiting
    exact .add howner hfresh
  | asking n next => exact .query howner (.asked n _ next howner) rfl rfl
  | counting n next => exact .count howner next
  | asked | refused | counted => cases waiting

/-- What the handler of a reply leaves: a count to come instead of a count to come, and no
addition. -/
theorem Creating.deliver (h : Creating c u D b j) {d : Device} (m : ℤ)
    {a : Except String j.request.Answer} (answered : j.reply = some a) :
    (∀ r ∈ (resume P j.request m a d).2, Creating c u D b (.issue c r)) ∧
    (((resume P j.request m a d).2).map (Job.issue c)).countP willCount =
      (if willCount j then 1 else 0) ∧
    (((resume P j.request m a d).2).map (Job.issue c)).countP willAdd = 0 := by
  -- handlers that leave nothing, of replies that no count waits for
  have hnothing : ∀ {rs : List Request}, rs = [] → willCount j = false →
      (∀ r ∈ rs, Creating c u D b (.issue c r)) ∧
      (rs.map (Job.issue c)).countP willCount = (if willCount j then 1 else 0) ∧
      (rs.map (Job.issue c)).countP willAdd = 0 := by
    rintro rs rfl hj
    rw [hj]
    exact ⟨nofun, rfl, rfl⟩
  cases h with
  | loading email reply =>
    refine hnothing ?_ rfl
    cases a with
    | ok docs => rfl
    | error e => rfl
  | adding title author p link reply =>
    refine hnothing ?_ rfl
    cases a with
    | ok _ => rfl
    | error e => rfl
  | asked n docs next mine =>
    cases answered
    obtain ⟨doc, rfl, hid⟩ := List.map_eq_singleton_iff.mp mine
    have hrs : (resume P (.createdUserInfo u n) m (.ok [doc]) d).2 = [.storeCreated D n] := by
      rw [← hid]
      simp [resume, handler, AddPlaylistVC.createdUserInfoReply]
    rw [hrs]
    refine ⟨fun r hr => ?_, rfl, rfl⟩
    obtain rfl := List.mem_singleton.mp hr
    exact .counting n next
  | refused n e =>
    cases answered
    exact hnothing rfl rfl
  | counted n reply =>
    refine hnothing ?_ rfl
    cases a with
    | ok _ => rfl
    | error e => rfl
  | asking | counting => cases answered

/-- Requests of an event: a playlist to come and a count to come, or neither. -/
structure Opens (c : ℕ) (u : String) (D : ℕ) (s : State) (rs : List Request) : Prop where
  jobs : ∀ r ∈ rs, Creating c u D s.store (.issue c r)
  single : (rs.map (Job.issue c)).countP willCount = 0 ∨
    (rs.map (Job.issue c)).countP willCount = 1 ∧ s.jobs.countP willCount = 0
  paired : (rs.map (Job.issue c)).countP willAdd = (rs.map (Job.issue c)).countP willCount

theorem creating_start {e : Event} (guard : creatingUpToDate c u D s (.event c e) = true)
    (live : (s.locals c).crashed = false) : Opens c u D s (start e (s.locals c)).2 := by
  obtain ⟨hlabel, hclick⟩ := Bool.and_eq_true_iff.mp guard
  have hnothing : ∀ {rs : List Request}, rs = [] → Opens c u D s rs := by
    rintro rs rfl
    exact ⟨nofun, Or.inl rfl, rfl⟩
  cases e with
  | viewWillAppear =>
    rw [start, MapVC.viewWillAppear_apply live]
    cases (s.locals c).currentUser with
    | none => exact hnothing rfl
    | some user =>
      refine ⟨fun r hr => ?_, Or.inl rfl, rfl⟩
      obtain rfl := List.mem_singleton.mp hr
      exact .loading user.email none
  | addPlaylistClicked vc =>
    by_cases haccepted : AddPlaylistVC.accepts (s.locals c) vc = true
    · simp only [haccepted, Bool.not_true, Bool.false_or, Bool.and_eq_true, decide_eq_true_eq,
        List.all_eq_true, Bool.not_eq_true'] at hclick
      obtain ⟨⟨hemail, hcounter⟩, hnone⟩ := hclick
      rw [start, AddPlaylistVC.addPlaylistClicked_accepted live haccepted, hemail, hcounter]
      refine ⟨fun r hr => ?_, Or.inr ⟨rfl, ?_⟩, rfl⟩
      · rcases List.mem_pair.mp hr with rfl | rfl
        · exact .adding _ _ _ _ none
        · exact .asking _ rfl
      · exact List.countP_eq_zero.mpr (fun i hi => by simp [hnone i hi])
    · obtain ⟨l, hrejected⟩ :=
        AddPlaylistVC.addPlaylistClicked_rejected (Bool.eq_false_iff.mpr haccepted)
      exact hnothing (congrArg Prod.snd hrejected)
  | editText vc field text => exact hnothing rfl
  | mapLongPressed vc coords =>
    rw [start, AddPlaylistVC.mapLongPressed, andThen_of_live (by exact live)]
    exact hnothing rfl
  | _ => simp [creating] at hlabel

/-- A call that is answered counts at most when it was going to. -/
theorem Creating.willCount_answer (h : Creating c u D b j) (waiting : j.reply = none)
    (a : Except String j.request.Answer) (hwill : willCount (j.answer a) = true) :
    willCount j = true := by
  cases h with
  | loading | adding => cases hwill
  | asking | counting => rfl
  | asked | refused | counted => cases waiting

theorem Creating.fail (h : Creating c u D b j) (waiting : j.reply = none) (err : String) :
    Creating c u D b (j.answer (.error err)) ∧ willCount (j.answer (.error err)) = false ∧
    willCount j = isCounting j.request ∧ willAdd j = isAddition j.request := by
  cases h with
  | loading email reply => exact ⟨.loading email _, rfl, rfl, Bool.and_false _⟩
  | adding title author p link reply =>
    obtain rfl : reply = none := waiting
    exact ⟨.adding title author p link _, rfl, rfl, rfl⟩
  | asking n next => exact ⟨.refused n err, rfl, rfl, rfl⟩
  | counting n next => exact ⟨.counted n _, rfl, rfl, rfl⟩
  | asked | refused | counted => cases waiting

def failures (s : State) (ℓ : Label) : ℤ := failing isAddition s ℓ - failing isCounting s ℓ

/-- **One move** keeps the invariant, and the balance up to the call that fails in it. -/
theorem step_ledger (h : Ledger c u D b₀ s) (guard : creatingUpToDate c u D s ℓ = true)
    (move : Step (app P) s ℓ s') :
    Ledger c u D b₀ s' ∧ balance D b₀ s' = balance D b₀ s + failures s ℓ := by
  have hone := h.single
  have hstart : ∀ c' e, ℓ = .event c' e → (app P).live (s.locals c') = true → c' = c ∧
      Opens c u D s (start e (s.locals c)).2 := by
    rintro c' e rfl live
    obtain ⟨hc, -⟩ := Bool.and_eq_true_iff.mp (Bool.and_eq_true_iff.mp guard).1
    obtain rfl : c' = c := by simpa using hc
    exact ⟨rfl, creating_start guard (by simpa using live)⟩
  have hsingle : ∀ {js₁ j js₂}, s.jobs = js₁ ++ j :: js₂ → ∀ i ∈ js₁ ++ js₂,
      ¬ (willCount j = true ∧ willCount i = true) := by
    rintro js₁ j js₂ split i hi ⟨hj, hwill⟩
    have hpos := List.countP_pos_iff.mpr ⟨i, hi, hwill⟩
    rw [split, List.countP_append, List.countP_cons, if_pos hj] at hone
    rw [List.countP_append] at hpos
    omega
  have hjobs : ∀ j ∈ s'.jobs, Creating c u D s'.store j := by
    refine move.jobs h.jobs ?_ ?_ ?_ ?_
    · intro c' e hℓ live
      obtain ⟨rfl, hnew⟩ := hstart c' e hℓ live
      exact hnew.jobs
    · intro js₁ j js₂ m _ split waiting
      have heff := (h.jobs j (mem_of_split split)).effect (P := P) h.owner h.fresh m waiting
      exact ⟨heff.self, fun i hi =>
        heff.others i (h.jobs i ((rest_sublist split).subset hi)) (hsingle split i hi)⟩
    · intro js₁ j js₂ err _ split waiting
      exact ((h.jobs j (mem_of_split split)).fail waiting err).1
    · intro js₁ j js₂ m a _ split answered _
      have hj := h.jobs j (mem_of_split split)
      rw [hj.client]
      exact (hj.deliver m answered).1
  cases move with
  | event c' e live =>
    obtain ⟨rfl, -, hcount, hadd⟩ := hstart c' e rfl live
    refine ⟨⟨h.owner, hjobs, ?_, h.fresh, h.mine⟩, ?_⟩
    · rw [State.proceed_jobs, app_start, List.countP_append]
      omega
    · simp only [balance, State.proceed_jobs, State.proceed_store, List.countP_append, failures,
        failing]
      omega
  | @effect js₁ js₂ j m split waiting =>
    have hj := h.jobs j (mem_of_split split)
    have heff := hj.effect (P := P) h.owner h.fresh m waiting
    have hbalance := heff.balance
    have hless := hj.willCount_answer waiting (j.request.operation.exec P m s.store).2
    rw [split, List.countP_append, List.countP_cons] at hone
    refine ⟨⟨heff.owner, hjobs, ?_, h.fresh.trans heff.next,
      fun doc hdoc => (heff.mine doc hdoc).elim (h.mine doc) id⟩, ?_⟩
    · rw [State.settle_jobs, app_exec, List.countP_append, List.countP_cons]
      by_cases hwill : willCount (j.answer (j.request.operation.exec P m s.store).2) = true
      · rw [if_pos hwill]
        rw [if_pos (hless hwill)] at hone
        exact hone
      · rw [if_neg hwill]
        omega
    · simp only [balance, State.settle_jobs, State.settle_store, split, List.countP_append,
        List.countP_cons, failures, failing]
      push_cast
      omega
  | @fail js₁ js₂ j err split waiting =>
    obtain ⟨-, hcount, hcounting, haddition⟩ :=
      (h.jobs j (mem_of_split split)).fail waiting err
    have hadd : willAdd (j.answer (.error err)) = false := rfl
    have hget := getElem?_split split
    rw [split] at hget
    rw [split, List.countP_append, List.countP_cons] at hone
    refine ⟨⟨h.owner, hjobs, ?_, h.fresh, h.mine⟩, ?_⟩
    · rw [State.settle_jobs, List.countP_append, List.countP_cons, hcount]
      simp only [Bool.false_eq_true, if_false]
      omega
    · simp only [balance, State.settle_jobs, State.settle_store, split, List.countP_append,
        List.countP_cons, failures, failing, hget, Option.any_some, hcount, hadd,
        hcounting, haddition]
      push_cast
      omega
  | @deliver js₁ js₂ j m a split answered live =>
    have hj := h.jobs j (mem_of_split split)
    obtain ⟨-, hcount, hadd⟩ := hj.deliver (P := P) (d := s.locals c) m answered
    have hno : willAdd j = false := by rw [willAdd, answered]; rfl
    rw [split, List.countP_append, List.countP_cons] at hone
    refine ⟨⟨h.owner, hjobs, ?_, h.fresh, h.mine⟩, ?_⟩
    · rw [State.proceed_jobs, app_resume, hj.client, List.countP_append, List.countP_append, hcount]
      omega
    · simp only [balance, State.proceed_jobs, State.proceed_store, hj.client, split,
        List.countP_append, List.countP_cons, hcount, hadd, hno, failures, failing]
      push_cast
      omega

theorem Loaded.ledger (h : Loaded c u D s) : Ledger c u D s.store s ∧
    balance D s.store s = s.store.counter D .totalPlaylistsCreated := by
  have hnone : addedPlaylists s.store s.store = [] := by
    refine List.filter_eq_nil_iff.mpr (fun doc hdoc => ?_)
    rw [Backend.doc?, Store.Collection.mem_docs.mp hdoc]
    exact Bool.false_ne_true
  refine ⟨⟨h.owner, ?_, ?_, Nat.le_refl _, ?_⟩, ?_⟩
  · rw [h.quiet]
    exact fun _ hj => absurd hj List.not_mem_nil
  · rw [h.quiet]
    exact Nat.zero_le _
  · rw [hnone]
    exact fun _ hdoc => absurd hdoc List.not_mem_nil
  · simp [balance, h.quiet, hnone]

/-- **The counter of created playlists** when every click is up to date: every playlist
added carries the user's email, and once nothing is in flight the counter has grown by the
playlists added if and only if as many additions as calls for the counter have failed. -/
theorem totalPlaylistsCreated_iff {ls : List Label} (hs : Loaded c u D s)
    (h : Run (app P) (fun s ℓ => creatingUpToDate c u D s ℓ) s ls s') :
    (∀ doc ∈ addedPlaylists s.store s'.store, doc.data .email = some (.string u)) ∧
    (s'.jobs = [] →
      (s'.store.counter D .totalPlaylistsCreated = s.store.counter D .totalPlaylistsCreated +
          (addedPlaylists s.store s'.store).length ↔
        tally (app P) (failing isAddition) s ls = tally (app P) (failing isCounting) s ls)) := by
  obtain ⟨hstart, hbalance⟩ := hs.ledger
  have hend := h.invariant (fun _ _ _ hI guard move => (step_ledger hI guard move).1) hstart
  have hledger := h.ledger (fun _ _ _ hI guard move => step_ledger hI guard move) hstart
  refine ⟨hend.mine, fun hs' => ?_⟩
  rw [hbalance, show failures = fun s ℓ => failing isAddition s ℓ - failing isCounting s ℓ from rfl,
    tally_sub] at hledger
  simp only [balance, hs', List.countP_nil] at hledger
  omega

/-! ### A lost count -/

def formFilledIn : State where
  store := .of [] [] [Dict.fields (Request.userDict "ann" "ann@mail.org" "secret") 0]
    [⟨"ann@mail.org", "secret"⟩]
  locals := Function.update (fun _ => .launched) 0
    { Device.atMap ⟨0, "ann@mail.org"⟩
        (Dict.fields (Request.userDict "ann" "ann@mail.org" "secret") 0) with
      text := fun _ field => match field with
        | .titleTextField => "Road"
        | .linkTextField => MapVC.defaultLink
        | _ => "" }
  jobs := []

theorem formFilledIn_loaded : Loaded 0 "ann@mail.org" 0 formFilledIn where
  quiet := rfl
  signedIn := rfl
  alone := by
    intro c hc
    simp [formFilledIn, Function.update_of_ne hc, Device.launched]
  owner := by decide +kernel
  agrees := ⟨_, rfl, rfl, by decide +kernel⟩

def clickAndFail : List Label :=
  [.event 0 (.addPlaylistClicked 0), .effect 0 0, .deliver 0 0, .effect 0 0, .deliver 0 0,
    .effect 0 0, .deliver 0 0, .event 0 (.addPlaylistClicked 0), .fail 0 "offline",
    .fail 1 "offline", .deliver 0 0, .deliver 0 0]

def clickTwice : List Label :=
  [.event 0 (.addPlaylistClicked 0), .event 0 (.addPlaylistClicked 0), .effect 0 0, .effect 1 0,
    .effect 2 0, .effect 3 0, .deliver 0 0, .deliver 0 0, .deliver 0 0, .deliver 0 0,
    .effect 0 0, .effect 1 0, .deliver 0 0, .deliver 0 0]

theorem totalPlaylistsCreated_clickAndFail : ∃ s',
    Run (app .sample) (fun s ℓ => creatingUpToDate 0 "ann@mail.org" 0 s ℓ) formFilledIn clickAndFail
      s' ∧
    (∀ doc ∈ addedPlaylists formFilledIn.store s'.store,
      doc.data .email = some (.string "ann@mail.org")) ∧
    s'.store.counter 0 .totalPlaylistsCreated =
      formFilledIn.store.counter 0 .totalPlaylistsCreated +
        (addedPlaylists formFilledIn.store s'.store).length ∧
    (addedPlaylists formFilledIn.store s'.store).length = 1 := by
  obtain ⟨s', h, hend⟩ := Run.exists_of_run
    (Q := fun s' => s'.jobs.isEmpty && (addedPlaylists formFilledIn.store s'.store).length = 1)
    (P := app .sample) (G := creatingUpToDate 0 "ann@mail.org" 0) (s := formFilledIn)
    (l := clickAndFail) (by decide +kernel)
  obtain ⟨hjobs, hone⟩ := Bool.and_eq_true_iff.mp hend
  obtain ⟨hmine, hexact⟩ := totalPlaylistsCreated_iff formFilledIn_loaded h
  exact ⟨s', h, hmine, (hexact (List.isEmpty_iff.mp hjobs)).mpr (by decide +kernel),
    of_decide_eq_true hone⟩

/-- **A lost count**: two clicks fix the same new value, and two playlists count once. -/
theorem totalPlaylistsCreated_lost : Loaded 0 "ann@mail.org" 0 formFilledIn ∧ ∃ s',
    Run (app .sample) (fun _ ℓ => creating 0 ℓ) formFilledIn clickTwice s' ∧ s'.jobs = [] ∧
    s'.store.counter 0 .totalPlaylistsCreated ≠
      formFilledIn.store.counter 0 .totalPlaylistsCreated +
        (addedPlaylists formFilledIn.store s'.store).length := by
  obtain ⟨s', h, hend⟩ := Run.exists_of_run
    (Q := fun s' => s'.jobs.isEmpty && s'.store.counter 0 .totalPlaylistsCreated ≠
      formFilledIn.store.counter 0 .totalPlaylistsCreated +
        (addedPlaylists formFilledIn.store s'.store).length)
    (P := app .sample) (G := fun _ => creating 0) (s := formFilledIn) (l := clickTwice)
    (by decide +kernel)
  obtain ⟨hjobs, hne⟩ := Bool.and_eq_true_iff.mp hend
  exact ⟨formFilledIn_loaded, s', h, List.isEmpty_iff.mp hjobs, of_decide_eq_true hne⟩

end SpotiFriend

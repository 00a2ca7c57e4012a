import Mathlib.Data.Finset.Prod
import Mathlib.Tactic.Linarith
import SpotiFriend.Async.Jobs
import SpotiFriend.Spec.Actions
import SpotiFriend.Spec.Documents

/-!
# The counter of found playlists

A tap credits a playlist by a chain of four calls: the query for the playlists at the
pin, the write to `hasFound`, the query for the user's document and the write to its
counter.  `Credit` lists the places where a job of such a chain can be, with what is
known there, and `debt` says how much the counter still lacks when the job is there.

Main results, for a client that only taps and looks at the map while no call fails:

* `step_accounting`: counter plus debts grow by the playlists newly found;
* `totalPlaylistsFound_eq`: so the counter is exact once nothing is in flight, provided
  every result is handled while it is up to date;
* `totalPlaylistsFound_lost`: without that proviso a credit is lost.
-/

namespace SpotiFriend

open Async MapVC

/-- The playlists of both collections that `email` has found. -/
def Backend.found (b : Backend) (email : String) : Finset (CollectionName × ℕ) :=
  (({.masterPlaylists, .userPlaylists} : Finset CollectionName) ×ˢ
    Finset.range ((b.firestore .masterPlaylists).next + (b.firestore .userPlaylists).next)).filter
      (fun p => b.foundBy p.1 p.2 email)

theorem mem_found {b : Backend} {email : String} {coll : CollectionName} {id : ℕ} :
    (coll, id) ∈ b.found email ↔ coll ≠ .userInfo ∧ b.foundBy coll id email = true := by
  have hlt : b.foundBy coll id email = true → id < (b.firestore coll).next := by
    intro h
    obtain ⟨l, hl, -⟩ := Backend.mem_hasFound.mp (Backend.foundBy_eq_true.mp h)
    obtain ⟨f, hf, -⟩ := Option.bind_eq_some_iff.mp hl
    exact Store.Collection.lt_next hf
  rw [Backend.found, Finset.mem_filter, Finset.mem_product, Finset.mem_range]
  constructor
  · rintro ⟨⟨hcoll, -⟩, hfound⟩
    refine ⟨?_, hfound⟩
    rintro rfl
    simp at hcoll
  · rintro ⟨hcoll, hfound⟩
    have hid := hlt hfound
    cases coll with
    | masterPlaylists => exact ⟨⟨by simp, by omega⟩, hfound⟩
    | userPlaylists => exact ⟨⟨by simp, by omega⟩, hfound⟩
    | userInfo => exact absurd rfl hcoll

/-! ### The guard -/

/-- The moves of a client that only taps and looks at the map, with no call failing. -/
def tapping (c : ℕ) : Label → Bool
  | .event c' e => c' = c && match e with
    | .viewWillAppear | .calloutTapped _ => true
    | _ => false
  | .fail _ _ => false
  | _ => true

/-- What the handler of a playlist query or of the query for the user's document is given
is up to date: no playlist that it will write to has lost `u`, the counter in memory is
the one in the document, and no other write to these documents is on its way. -/
def upToDate (u : String) (D : ℕ) (s : State) : Job → Bool
  | ⟨c, .checkPlaylists coll _, some (.ok docs)⟩ => docs.all (fun doc =>
    (found? coll (s.locals c).sharedUserInfo.email doc).isNone ||
      (!s.store.foundBy coll doc.id u ||
        (getStrings doc.data .hasFound).any (fun l => l.contains u)) &&
      s.jobs.all (fun j => !waitsToWrite coll doc.id j))
  | ⟨c, .foundUserInfo email, some (.ok _)⟩ => email ≠ u ||
    (s.locals c).sharedUserInfo.totalPlaylistsFound = s.store.counter D .totalPlaylistsFound &&
      s.jobs.all (fun j => !waitsToWrite .userInfo D j)
  | _ => true

/-- The taps of client `c`, with every result up to date when it is handled. -/
def tappingUpToDate (c : ℕ) (u : String) (D : ℕ) (s : State) (ℓ : Label) : Bool :=
  tapping c ℓ && match ℓ with
    | .deliver i _ => s.jobs[i]?.all (upToDate u D s)
    | _ => true

/-! ### The chain of a credit -/

structure Snapshot (u : String) (b : Backend) (coll : CollectionName) (docs : List Doc) : Prop where
  playlists : coll ≠ .userInfo
  nodup : (docs.map Store.Document.id).Nodup
  found : ∀ doc ∈ docs, ∀ l, getStrings doc.data .hasFound = some l → u ∈ l →
    b.foundBy coll doc.id u = true

/-- What is known of a write to `hasFound` that has not taken effect: it adds `u` when it
is a credit for `u`, and changes nothing for `u` otherwise. -/
structure Marking (u : String) (b : Backend) (coll : CollectionName) (id : ℕ) (l : List String)
    (email : String) : Prop where
  playlists : coll ≠ .userInfo
  keeps : u ∈ l ↔ b.foundBy coll id u = true ∨ email = u
  new : email = u → b.foundBy coll id u = false

/-- Where a job in flight stands in its chain, and what is known there. -/
inductive Credit (c : ℕ) (u : String) (D : ℕ) (b : Backend) : Job → Prop
  | loading (email : String) : Credit c u D b ⟨c, .getUserInfo email, none⟩
  | loaded (email : String) (docs : List Doc) :
      Credit c u D b ⟨c, .getUserInfo email, some (.ok docs)⟩
  | tapped (coll : CollectionName) (p : Coordinate) (playlists : coll ≠ .userInfo) :
      Credit c u D b ⟨c, .checkPlaylists coll p, none⟩
  | checked (coll : CollectionName) (p : Coordinate) (docs : List Doc)
      (snapshot : Snapshot u b coll docs) :
      Credit c u D b ⟨c, .checkPlaylists coll p, some (.ok docs)⟩
  | marking (coll : CollectionName) (id : ℕ) (l : List String) (email : String)
      (marking : Marking u b coll id l email) :
      Credit c u D b ⟨c, .storeHasFound coll id l email, none⟩
  | marked (coll : CollectionName) (id : ℕ) (l : List String) (email : String) :
      Credit c u D b ⟨c, .storeHasFound coll id l email, some (.ok ())⟩
  | asking (email : String) : Credit c u D b ⟨c, .foundUserInfo email, none⟩
  | asked (email : String) (docs : List Doc)
      (mine : email = u → docs.map Store.Document.id = [D])
      (other : email ≠ u → D ∉ docs.map Store.Document.id) :
      Credit c u D b ⟨c, .foundUserInfo email, some (.ok docs)⟩
  | counting (id : ℕ) (n : ℤ) (next : id = D → n = b.counter D .totalPlaylistsFound + 1) :
      Credit c u D b ⟨c, .storeFound id n, none⟩
  | counted (id : ℕ) (n : ℤ) : Credit c u D b ⟨c, .storeFound id n, some (.ok ())⟩

/-- How much the counter of `D` still lacks when the job is in flight. -/
def debt (u : String) (D : ℕ) (j : Job) : ℕ :=
  match j.request, j.reply.isSome with
  | .storeHasFound _ _ _ email, true => if email = u then 1 else 0
  | .foundUserInfo email, _ => if email = u then 1 else 0
  | .storeFound id _, false => if id = D then 1 else 0
  | _, _ => 0

/-- Not two writes to the same playlist, nor two to the document `D`. -/
def Apart (D : ℕ) (j j' : Job) : Prop :=
  ∀ coll id, (coll = .userInfo → id = D) →
    ¬ (waitsToWrite coll id j = true ∧ waitsToWrite coll id j' = true)

structure Accounted (c : ℕ) (u : String) (D : ℕ) (s₀ s : State) : Prop where
  owner : Owner s.store u D
  jobs : ∀ j ∈ s.jobs, Credit c u D s.store j
  apart : s.jobs.Pairwise (Apart D)
  grown : s₀.store.found u ⊆ s.store.found u
  balance : s.store.counter D .totalPlaylistsFound + (s.jobs.map (debt u D)).sum =
    s₀.store.counter D .totalPlaylistsFound + (s.store.found u \ s₀.store.found u).card

variable {P : Platform} {c : ℕ} {u : String} {D : ℕ} {b b' : Backend} {s s₀ s' : State}
  {ℓ : Label}

/-! ### Effects -/

/-- A change of the store that takes no credit back, and leaves alone what the job is
going to write. -/
theorem Credit.frame {j : Job} (h : Credit c u D b j)
    (hfound : ∀ coll id, b.foundBy coll id u = true → b'.foundBy coll id u = true)
    (hmark : ∀ coll id, coll ≠ .userInfo → waitsToWrite coll id j = true →
      b'.foundBy coll id u = b.foundBy coll id u)
    (hcount : waitsToWrite .userInfo D j = true →
      b'.counter D .totalPlaylistsFound = b.counter D .totalPlaylistsFound) :
    Credit c u D b' j := by
  cases h with
  | loading email => exact .loading email
  | loaded email docs => exact .loaded email docs
  | tapped coll p playlists => exact .tapped coll p playlists
  | checked coll p docs snapshot =>
    exact .checked coll p docs ⟨snapshot.playlists, snapshot.nodup,
      fun doc hdoc l hl hu => hfound _ _ (snapshot.found doc hdoc l hl hu)⟩
  | marking coll id l email marking =>
    have hsame := hmark coll id marking.playlists (waitsToWrite_iff.mpr ⟨rfl, _, rfl⟩)
    refine .marking coll id l email ⟨marking.playlists, ?_, ?_⟩
    · rw [hsame]
      exact marking.keeps
    · rw [hsame]
      exact marking.new
  | marked coll id l email => exact .marked coll id l email
  | asking email => exact .asking email
  | asked email docs mine other => exact .asked email docs mine other
  | counting id n next =>
    refine .counting id n (fun hid => ?_)
    rw [hcount (waitsToWrite_iff.mpr ⟨rfl, _, by rw [← hid]⟩)]
    exact next hid
  | counted id n => exact .counted id n

/-- What a job that takes effect does: it goes on in its chain, the other chains are not
disturbed, and what the counter gains or the debt loses is a playlist newly found. -/
structure Effect (c : ℕ) (u : String) (D : ℕ) (b b' : Backend) (j j' : Job) : Prop where
  self : Credit c u D b' j'
  others : ∀ i, Credit c u D b i → Apart D j i → Credit c u D b' i
  owner : Owner b' u D
  grown : b.found u ⊆ b'.found u
  balance : b'.counter D .totalPlaylistsFound + debt u D j' =
    b.counter D .totalPlaylistsFound + debt u D j + (b'.found u \ b.found u).card

theorem Effect.query {j j' : Job} (howner : Owner b u D) (hself : Credit c u D b j')
    (hdebt : debt u D j' = debt u D j) : Effect c u D b b j j' where
  self := hself
  others _ hi _ := hi
  owner := howner
  grown := Finset.Subset.refl _
  balance := by simp [hdebt]

section

variable {m : ℤ} {coll : CollectionName} {id : ℕ} {l : List String} {email : String} {n : ℤ}

theorem foundBy_mark (coll' : CollectionName) (id' : ℕ) :
    ((Request.storeHasFound coll id l email).operation.exec P m b).1.foundBy coll' id' u =
      if coll' = coll ∧ id' = id then decide (u ∈ l) else b.foundBy coll' id' u := by
  rw [Backend.foundBy, hasFound_storeHasFound]
  split
  · rw [List.contains_eq_mem]
  · rfl

theorem Effect.mark (howner : Owner b u D) (h : Marking u b coll id l email) :
    Effect c u D b ((Request.storeHasFound coll id l email).operation.exec P m b).1
      ⟨c, .storeHasFound coll id l email, none⟩
      ⟨c, .storeHasFound coll id l email, some (.ok ())⟩ := by
  have hinfo : ∀ id' k, ((Request.storeHasFound coll id l email).operation.exec P m b).1.field
      .userInfo id' k = b.field .userInfo id' k :=
    fun id' k => field_setData_of_ne (fun hc => absurd hc.symm h.playlists)
  have hcounter : ((Request.storeHasFound coll id l email).operation.exec P m b).1.counter D
      .totalPlaylistsFound = b.counter D .totalPlaylistsFound := by
    rw [Backend.counter, hinfo]
    rfl
  have hfound : ∀ coll' id', ((Request.storeHasFound coll id l email).operation.exec P m b).1.foundBy
      coll' id' u = true ↔ b.foundBy coll' id' u = true ∨
        (coll' = coll ∧ id' = id ∧ email = u) := by
    intro coll' id'
    rw [foundBy_mark]
    by_cases hsame : coll' = coll ∧ id' = id
    · obtain ⟨rfl, rfl⟩ := hsame
      simp [h.keeps]
    · rw [if_neg hsame]
      exact ⟨Or.inl, fun hor => hor.resolve_right (fun hc => hsame ⟨hc.1, hc.2.1⟩)⟩
  refine ⟨.marked coll id l email, ?_, howner.frame (fun id' => hinfo id' .email), ?_, ?_⟩
  · intro i hi hapart
    refine hi.frame (fun coll' id' hf => (hfound coll' id').mpr (Or.inl hf)) ?_ (fun _ => hcounter)
    intro coll' id' hcoll' hwaits
    rw [foundBy_mark, if_neg]
    rintro ⟨rfl, rfl⟩
    exact hapart coll' id' (fun hc => absurd hc hcoll')
      ⟨waitsToWrite_iff.mpr ⟨rfl, _, rfl⟩, hwaits⟩
  · rintro ⟨coll', id'⟩ hmem
    rw [mem_found] at hmem ⊢
    exact ⟨hmem.1, (hfound coll' id').mpr (Or.inl hmem.2)⟩
  · rw [hcounter]
    by_cases he : email = u
    · -- the playlist is newly found
      have hnew : ((Request.storeHasFound coll id l email).operation.exec P m b).1.found u \
          b.found u = {(coll, id)} := by
        ext ⟨coll', id'⟩
        rw [Finset.mem_sdiff, mem_found, mem_found, hfound, Finset.mem_singleton, Prod.mk.injEq]
        constructor
        · rintro ⟨⟨hcoll, hf | ⟨h₁, h₂, -⟩⟩, hnot⟩
          · exact absurd ⟨hcoll, hf⟩ hnot
          · exact ⟨h₁, h₂⟩
        · rintro ⟨rfl, rfl⟩
          refine ⟨⟨h.playlists, Or.inr ⟨rfl, rfl, he⟩⟩, fun hf => ?_⟩
          rw [h.new he] at hf
          exact absurd hf.2 (by simp)
      rw [hnew, Finset.card_singleton]
      simp [debt, he]
    · have hnew : ((Request.storeHasFound coll id l email).operation.exec P m b).1.found u \
          b.found u = ∅ := by
        refine Finset.sdiff_eq_empty_iff_subset.mpr ?_
        rintro ⟨coll', id'⟩ hmem
        rw [mem_found, hfound] at hmem
        exact mem_found.mpr ⟨hmem.1, hmem.2.resolve_right (fun hc => he hc.2.2)⟩
      rw [hnew]
      simp [debt, he]

theorem Effect.count (howner : Owner b u D)
    (next : id = D → n = b.counter D .totalPlaylistsFound + 1) :
    Effect c u D b ((Request.storeFound id n).operation.exec P m b).1
      ⟨c, .storeFound id n, none⟩ ⟨c, .storeFound id n, some (.ok ())⟩ := by
  have hkeep : ∀ coll' id' k, k ≠ .totalPlaylistsFound →
      ((Request.storeFound id n).operation.exec P m b).1.field coll' id' k =
        b.field coll' id' k :=
    fun coll' id' k hk => field_setData_of_absent (by simp [hk])
  have hfound : ∀ coll' id', ((Request.storeFound id n).operation.exec P m b).1.foundBy coll' id' u =
      b.foundBy coll' id' u := by
    intro coll' id'
    rw [Backend.foundBy, hasFound_setData_of_absent (by simp)]
    rfl
  have hset : ((Request.storeFound id n).operation.exec P m b).1.found u = b.found u := by
    ext ⟨coll', id'⟩
    rw [mem_found, mem_found, hfound]
  refine ⟨.counted id n, ?_, howner.frame (fun id' => hkeep _ _ _ (by simp)), hset.symm.subset, ?_⟩
  · intro i hi hapart
    refine hi.frame (fun coll' id' hf => by rw [hfound]; exact hf) (fun _ _ _ _ => hfound _ _) ?_
    intro hwaits
    rw [Backend.counter, field_setData_of_ne]
    · rfl
    · rintro - rfl
      exact hapart .userInfo D (fun _ => rfl) ⟨waitsToWrite_iff.mpr ⟨rfl, _, rfl⟩, hwaits⟩
  · rw [hset, Finset.sdiff_self, Finset.card_empty]
    by_cases hid : id = D
    · have hcounter : ((Request.storeFound id n).operation.exec P m b).1.counter D
          .totalPlaylistsFound = n := by
        rw [Backend.counter, field_setData, if_pos ⟨rfl, hid.symm⟩]
        simp [Entry.resolve]
      rw [hcounter, next hid]
      simp [debt, hid]
    · have hcounter : ((Request.storeFound id n).operation.exec P m b).1.counter D
          .totalPlaylistsFound = b.counter D .totalPlaylistsFound := by
        rw [Backend.counter, field_setData_of_ne (fun _ hd => hid hd.symm)]
        rfl
      rw [hcounter]
      simp [debt, hid]

end

/-- **Effects**: every job that takes effect goes on in its chain. -/
theorem Credit.effect {j : Job} (h : Credit c u D b j) (howner : Owner b u D) (m : ℤ)
    (waiting : j.reply = none) : Effect c u D b (j.request.operation.exec P m b).1 j
      (j.answer (j.request.operation.exec P m b).2) := by
  cases h with
  | loading email => exact .query howner (.loaded email _) rfl
  | tapped coll p playlists =>
    refine .query howner (.checked coll p _ ⟨playlists, Backend.nodup_getDocuments, ?_⟩) rfl
    intro doc hdoc l hl hu
    have hstored : b.hasFound coll doc.id = l := Backend.hasFound_of_mem hdoc hl
    rw [Backend.foundBy_eq_true, hstored]
    exact hu
  | marking coll id l email marking => exact .mark howner marking
  | asking email =>
    refine .query howner (.asked email _ ?_ (fun hne => howner.notMem hne)) rfl
    rintro rfl
    exact howner
  | counting id n next => exact .count howner next
  | loaded | checked | marked | asked | counted => cases waiting

/-! ### Results -/

/-- What the handler of a reply leaves: requests that go on in the chain, owe what the
reply owed, and write to no document that another job is going to write to. -/
structure Handed (c : ℕ) (u : String) (D : ℕ) (s : State) (j : Job) (rs : List Request) : Prop
    extends Leaves (Credit c u D s.store) (Apart D) s.jobs c rs where
  balance : ((rs.map (Job.issue c)).map (debt u D)).sum = debt u D j

theorem apart_of_query {i : Job} {r : Request}
    (h : ∀ coll id data, r.operation ≠ .setData coll id data) : Apart D i (.issue c r) := by
  rintro coll id - ⟨-, hwaits⟩
  obtain ⟨-, data, hdata⟩ := waitsToWrite_iff.mp hwaits
  exact h coll id data hdata

theorem Handed.nothing {j : Job} (hdebt : debt u D j = 0) : Handed c u D s j [] :=
  ⟨.nil, hdebt.symm⟩

theorem mem_checked {coll : CollectionName} {docs : List Doc} {email : String} {r : Request}
    (h : r ∈ docs.filterMap (found? coll email)) : ∃ doc ∈ docs, ∃ l,
      getStrings doc.data .hasFound = some l ∧ email ∉ l ∧
      r = .storeHasFound coll doc.id (l ++ [email]) email := by
  obtain ⟨doc, hdoc, hr⟩ := List.mem_filterMap.mp h
  obtain ⟨l, hl, hnot, rfl⟩ := found?_eq_some.mp hr
  exact ⟨doc, hdoc, l, hl, hnot, rfl⟩

theorem Handed.checked {coll : CollectionName} {p : Coordinate} {docs : List Doc}
    (h : Snapshot u s.store coll docs)
    (fresh : upToDate u D s ⟨c, .checkPlaylists coll p, some (.ok docs)⟩ = true)
    {rs : List Request}
    (hrs : rs.Sublist (docs.filterMap (found? coll (s.locals c).sharedUserInfo.email))) :
    Handed c u D s ⟨c, .checkPlaylists coll p, some (.ok docs)⟩ rs := by
  -- the guard, document by document
  have hfresh : ∀ doc ∈ docs, ∀ l, getStrings doc.data .hasFound = some l →
      (s.locals c).sharedUserInfo.email ∉ l →
      (s.store.foundBy coll doc.id u = true → u ∈ l) ∧
      ∀ i ∈ s.jobs, waitsToWrite coll doc.id i = false := by
    intro doc hdoc l hl hnot
    have hg := List.all_eq_true.mp fresh doc hdoc
    rw [found?_eq_some.mpr ⟨l, hl, hnot, rfl⟩, hl] at hg
    simp only [Option.isNone_some, Bool.false_or, Option.any_some, Bool.and_eq_true,
      Bool.or_eq_true, Bool.not_eq_true', List.all_eq_true, List.contains_iff_mem] at hg
    refine ⟨fun hf => hg.1.resolve_left (by rw [hf]; simp), hg.2⟩
  refine ⟨⟨?_, ?_, ?_⟩, ?_⟩
  · intro r hr
    obtain ⟨doc, hdoc, l, hl, hnot, rfl⟩ := mem_checked (hrs.subset hr)
    obtain ⟨hstored, -⟩ := hfresh doc hdoc l hl hnot
    refine .marking coll doc.id _ _ ⟨h.playlists, ?_, ?_⟩
    · rw [List.mem_append, List.mem_singleton]
      constructor
      · rintro (hu | rfl)
        · exact Or.inl (h.found doc hdoc l hl hu)
        · exact Or.inr rfl
      · rintro (hf | rfl)
        · exact Or.inl (hstored hf)
        · exact Or.inr rfl
    · rintro rfl
      rw [Bool.eq_false_iff]
      exact fun hf => hnot (hstored hf)
  · -- two documents of the result have different IDs
    have hids : (docs.filterMap (found? coll (s.locals c).sharedUserInfo.email)).Pairwise
        (fun r r' => Apart D (.issue c r) (.issue c r')) := by
      have hnodup := h.nodup
      rw [List.Nodup, List.pairwise_map] at hnodup
      rw [List.pairwise_filterMap]
      refine hnodup.imp_of_mem (fun {doc doc'} _ _ hne r hr r' hr' => ?_)
      obtain ⟨l, -, -, rfl⟩ := found?_eq_some.mp hr
      obtain ⟨l', -, -, rfl⟩ := found?_eq_some.mp hr'
      rintro coll' id' - ⟨h₁, h₂⟩
      obtain ⟨-, _, h₁⟩ := waitsToWrite_iff.mp h₁
      obtain ⟨-, _, h₂⟩ := waitsToWrite_iff.mp h₂
      cases h₁
      exact hne (Operation.setData.inj h₂).2.1.symm
    exact List.pairwise_map.mpr (hids.sublist hrs)
  · intro i hi r hr
    obtain ⟨doc, hdoc, l, hl, hnot, rfl⟩ := mem_checked (hrs.subset hr)
    rintro coll' id' - ⟨h₁, h₂⟩
    obtain ⟨-, _, h₂⟩ := waitsToWrite_iff.mp h₂
    cases h₂
    rw [(hfresh doc hdoc l hl hnot).2 i hi] at h₁
    cases h₁
  · rw [List.map_map, show debt u D ⟨c, .checkPlaylists coll p, some (.ok docs)⟩ = 0 from rfl]
    refine List.sum_eq_zero (fun n hn => ?_)
    obtain ⟨r, hr, rfl⟩ := List.mem_map.mp hn
    obtain ⟨doc, -, l, -, -, rfl⟩ := mem_checked (hrs.subset hr)
    rfl

theorem Handed.asked {email : String} {docs : List Doc}
    (mine : email = u → docs.map Store.Document.id = [D])
    (other : email ≠ u → D ∉ docs.map Store.Document.id)
    (fresh : upToDate u D s ⟨c, .foundUserInfo email, some (.ok docs)⟩ = true) :
    Handed c u D s ⟨c, .foundUserInfo email, some (.ok docs)⟩ (docs.map (fun doc =>
      .storeFound doc.id ((s.locals c).sharedUserInfo.totalPlaylistsFound + 1))) := by
  have hwrite : ∀ {coll id id' n}, (coll = .userInfo → id = D) →
      waitsToWrite coll id (.issue c (.storeFound id' n)) = true → coll = .userInfo ∧ id' = D := by
    intro coll id id' n hD hwaits
    obtain ⟨-, _, hop⟩ := waitsToWrite_iff.mp hwaits
    cases hop
    exact ⟨rfl, hD rfl⟩
  by_cases he : email = u
  · obtain ⟨doc, rfl, hid⟩ := List.map_eq_singleton_iff.mp (mine he)
    simp only [upToDate, he, ne_eq, not_true_eq_false, decide_false, Bool.false_or,
      Bool.and_eq_true, decide_eq_true_eq, List.all_eq_true, Bool.not_eq_true'] at fresh
    rw [List.map_singleton, hid]
    refine ⟨.singleton (.counting D _ (fun _ => by rw [fresh.1])) ?_, ?_⟩
    · rintro i hi coll id hD ⟨h₁, h₂⟩
      obtain ⟨rfl, -⟩ := hwrite hD h₂
      rw [hD rfl, fresh.2 i hi] at h₁
      cases h₁
    · simp [debt, he]
  · have hne : ∀ doc ∈ docs, doc.id ≠ D :=
      fun doc hdoc hid => other he (List.mem_map.mpr ⟨doc, hdoc, hid⟩)
    have hapart : ∀ {i : Job}, ∀ doc ∈ docs, ∀ n, Apart D i (.issue c (.storeFound doc.id n)) := by
      rintro i doc hdoc n coll id hD ⟨-, h₂⟩
      exact hne doc hdoc (hwrite hD h₂).2
    refine ⟨.of_forall (fun r hr => ?_) (fun r hr i => ?_), ?_⟩
    · obtain ⟨doc, hdoc, rfl⟩ := List.mem_map.mp hr
      exact .counting doc.id _ (fun hid => absurd hid (hne doc hdoc))
    · obtain ⟨doc, hdoc, rfl⟩ := List.mem_map.mp hr
      exact hapart doc hdoc _
    · rw [List.map_map, List.map_map, List.sum_eq_zero]
      · simp [debt, he]
      · intro n hn
        obtain ⟨doc, hdoc, rfl⟩ := List.mem_map.mp hn
        simp [debt, hne doc hdoc]

/-- **Results**: every handler goes on in the chain. -/
theorem Credit.deliver {j : Job} (h : Credit c u D s.store j) (m : ℤ)
    {a : Except String j.request.Answer} (answered : j.reply = some a)
    (live : (s.locals c).crashed = false) (fresh : upToDate u D s j = true) :
    Handed c u D s j (resume P j.request m a (s.locals c)).2 := by
  cases h with
  | loaded email docs =>
    cases answered
    exact .nothing rfl
  | checked coll p docs snapshot =>
    cases answered
    exact .checked snapshot fresh (checkPlaylists_requests coll docs (s.locals c))
  | marked coll id l email =>
    cases answered
    exact ⟨.singleton (.asking email) (fun i _ => apart_of_query (fun _ _ _ => by simp)),
      Nat.add_zero _⟩
  | asked email docs mine other =>
    cases answered
    have hrs : (resume P (.foundUserInfo email) m (.ok docs) (s.locals c)).2 =
        docs.map (fun doc =>
          .storeFound doc.id ((s.locals c).sharedUserInfo.totalPlaylistsFound + 1)) :=
      congrArg Prod.snd (foundUserInfoReply_apply live docs)
    rw [hrs]
    exact .asked mine other fresh
  | counted id n =>
    cases answered
    exact .nothing rfl
  | loading | tapped | marking | asking | counting => cases answered

/-- A tap and an appearance of the map begin chains that owe nothing yet. -/
theorem Credit.start {e : Event} (he : tapping c (.event c e) = true)
    (live : (s.locals c).crashed = false) {j : Job} (hdebt : debt u D j = 0) :
    Handed c u D s j (start e (s.locals c)).2 := by
  cases e with
  | viewWillAppear =>
    have hrs : (SpotiFriend.start .viewWillAppear (s.locals c)).2 = _ :=
      congrArg Prod.snd (viewWillAppear_apply live)
    rw [hrs]
    cases (s.locals c).currentUser with
    | none => exact .nothing hdebt
    | some user =>
      exact ⟨.singleton (.loading user.email)
        (fun i _ => apart_of_query (fun _ _ _ => by simp)), hdebt.symm⟩
  | calloutTapped p =>
    have hrs : (SpotiFriend.start (.calloutTapped p) (s.locals c)).2 = _ :=
      congrArg Prod.snd (calloutTapped_apply live p)
    rw [hrs]
    refine ⟨.of_forall (fun r hr => ?_) (fun r hr i => ?_), hdebt.symm⟩
    · rcases List.mem_pair.mp hr with rfl | rfl
      · exact .tapped _ p (by simp)
      · exact .tapped _ p (by simp)
    · rcases List.mem_pair.mp hr with rfl | rfl
      · exact apart_of_query (fun _ _ _ => by simp)
      · exact apart_of_query (fun _ _ _ => by simp)
  | _ => simp [tapping] at he

/-! ### The accounting -/

theorem Credit.client {j : Job} (h : Credit c u D b j) : j.client = c := by
  cases h <;> rfl

/-- **What a move does to the account**: the counter and the debts together grow by the
playlists newly found. -/
theorem step_accounting (h : Accounted c u D s₀ s) (guard : tappingUpToDate c u D s ℓ = true)
    (move : Step (app P) s ℓ s') : Accounted c u D s₀ s' := by
  obtain ⟨hlabel, hfresh⟩ := Bool.and_eq_true_iff.mp guard
  have hstart : ∀ c' e, ℓ = .event c' e → (app P).live (s.locals c') = true → c' = c ∧
      Handed c u D s ⟨c, .getUserInfo u, none⟩ (start e (s.locals c)).2 := by
    rintro c' e rfl live
    obtain ⟨hc, -⟩ := Bool.and_eq_true_iff.mp hlabel
    obtain rfl : c' = c := by simpa using hc
    exact ⟨rfl, Credit.start hlabel (by simpa using live) rfl⟩
  have hdeliver : ∀ i j m a, ℓ = .deliver i m → s.jobs[i]? = some j → j.reply = some a →
      (app P).live (s.locals j.client) = true → j.client = c ∧
      Handed c u D s j (resume P j.request m a (s.locals c)).2 := by
    rintro i j m a rfl hget answered live
    have hj := h.jobs j (List.mem_of_getElem? hget)
    have hc := hj.client
    rw [hc] at live
    simp only [hget, Option.all_some] at hfresh
    exact ⟨hc, hj.deliver m answered (by simpa using live) hfresh⟩
  have hfail : ∀ n err, ℓ ≠ .fail n err := by
    rintro n err rfl
    cases hlabel
  obtain ⟨hjobs, hpair⟩ : (∀ j ∈ s'.jobs, Credit c u D s'.store j) ∧
      s'.jobs.Pairwise (Apart D) := by
    refine move.jobs_pairwise (fun hxy coll id hD hw => hxy coll id hD hw.symm)
      (fun _ _ _ _ _ hw => (by cases hw.1)) h.jobs h.apart ?_ ?_ ?_ ?_
    · intro c' e hℓ live
      obtain ⟨rfl, hnew⟩ := hstart c' e hℓ live
      exact hnew.toLeaves
    · intro i j m _ hj waiting
      have heff := (h.jobs j hj).effect (P := P) h.owner m waiting
      exact ⟨heff.self, fun j' hj' => heff.others j' (h.jobs j' hj')⟩
    · intro i j err hℓ
      exact absurd hℓ (hfail _ _)
    · intro i j m a hℓ hj answered live
      obtain ⟨hc, hnew⟩ := hdeliver i j m a hℓ hj answered live
      rw [hc]
      exact hnew.toLeaves
  cases move with
  | event c' e live =>
    obtain ⟨rfl, hnew⟩ := hstart c' e rfl live
    refine ⟨h.owner, hjobs, hpair, h.grown, ?_⟩
    rw [State.proceed_jobs, State.proceed_store, List.map_append, List.sum_append, hnew.balance]
    exact h.balance
  | @effect js₁ js₂ j m split waiting =>
    have heff := (h.jobs j (mem_of_split split)).effect (P := P) h.owner m waiting
    refine ⟨heff.owner, hjobs, hpair, h.grown.trans heff.grown, ?_⟩
    -- what is found by now was found before, or by this effect
    have hcard : ((j.request.operation.exec P m s.store).1.found u \ s₀.store.found u).card =
        ((j.request.operation.exec P m s.store).1.found u \ s.store.found u).card +
          (s.store.found u \ s₀.store.found u).card := by
      rw [Finset.card_sdiff_of_subset heff.grown, Finset.card_sdiff_of_subset h.grown,
        Finset.card_sdiff_of_subset (h.grown.trans heff.grown)]
      have h₁ := Finset.card_le_card heff.grown
      have h₂ := Finset.card_le_card h.grown
      omega
    have hold := h.balance
    have hnew := heff.balance
    rw [split] at hold
    simp only [State.settle_jobs, State.settle_store, List.map_append, List.map_cons,
      List.sum_append, List.sum_cons] at hold ⊢
    rw [hcard]
    push_cast at hold ⊢
    linarith
  | fail j err split waiting => exact absurd rfl (hfail _ _)
  | @deliver js₁ js₂ j m a split answered live =>
    obtain ⟨hc, hnew⟩ := hdeliver _ j m a rfl (getElem?_split split) answered live
    refine ⟨h.owner, hjobs, hpair, h.grown, ?_⟩
    have hold := h.balance
    have hsum := hnew.balance
    rw [split] at hold
    simp only [State.proceed_jobs, State.proceed_store, hc, List.map_append, List.map_cons,
      List.sum_append, List.sum_cons] at hold ⊢
    rw [hsum]
    push_cast at hold ⊢
    linarith

theorem Loaded.accounted (h : Loaded c u D s) : Accounted c u D s s := by
  refine ⟨h.owner, ?_, ?_, Finset.Subset.refl _, ?_⟩
  · rw [h.quiet]
    intro j hj
    cases hj
  · rw [h.quiet]
    exact .nil
  · rw [h.quiet]
    simp

/-- **The counter of found playlists is exact** when every result is handled while it is
up to date: once nothing is in flight it has grown by the playlists newly found. -/
theorem totalPlaylistsFound_eq {ls : List Label} (hs : Loaded c u D s)
    (h : Run (app P) (fun s ℓ => tappingUpToDate c u D s ℓ) s ls s') (hs' : s'.jobs = []) :
    s'.store.counter D .totalPlaylistsFound = s.store.counter D .totalPlaylistsFound +
      (s'.store.found u \ s.store.found u).card := by
  have hend := h.invariant (fun _ _ _ hI guard move => step_accounting hI guard move) hs.accounted
  have hbalance := hend.balance
  rw [hs'] at hbalance
  simpa using hbalance

/-! ### A lost credit -/

def twoPlaylists : State where
  store := .of
    [Dict.fields (Request.playlistDict "Focus" "SpotiFriend" "" ⟨.fin 0, .fin 0⟩ defaultLink) 0]
    [Dict.fields (Request.playlistDict "Road" "bob" "bob@mail.org" ⟨.fin 0, .fin 0⟩ defaultLink) 0]
    [Dict.fields (Request.userDict "ann" "ann@mail.org" "secret") 0]
    [⟨"ann@mail.org", "secret"⟩]
  locals := Function.update (fun _ => .launched) 0 (.atMap ⟨0, "ann@mail.org"⟩
    (Dict.fields (Request.userDict "ann" "ann@mail.org" "secret") 0))
  jobs := []

theorem twoPlaylists_loaded : Loaded 0 "ann@mail.org" 0 twoPlaylists where
  quiet := rfl
  signedIn := rfl
  alone := by
    intro c hc
    simp [twoPlaylists, Function.update_of_ne hc, Device.launched]
  owner := by decide +kernel
  agrees := ⟨_, rfl, rfl, by decide +kernel⟩

def oneByOne : List Label :=
  [.event 0 (.calloutTapped ⟨.fin 0, .fin 0⟩), .effect 0 0, .effect 1 0, .deliver 0 0,
    .effect 1 0, .deliver 1 0, .effect 1 0, .deliver 1 0, .effect 1 0, .deliver 1 0,
    .deliver 0 0, .effect 0 0, .deliver 0 0, .effect 0 0, .deliver 0 0, .effect 0 0, .deliver 0 0]

def inTurns : List Label :=
  [.event 0 (.calloutTapped ⟨.fin 0, .fin 0⟩), .effect 0 0, .effect 1 0, .deliver 0 0,
    .deliver 0 0, .effect 0 0, .effect 1 0, .deliver 0 0, .deliver 0 0, .effect 0 0,
    .effect 1 0, .deliver 0 0, .deliver 0 0, .effect 0 0, .effect 1 0, .deliver 0 0, .deliver 0 0]

theorem totalPlaylistsFound_oneByOne : ∃ s',
    Run (app .sample) (fun s ℓ => tappingUpToDate 0 "ann@mail.org" 0 s ℓ) twoPlaylists oneByOne s' ∧
    s'.store.counter 0 .totalPlaylistsFound = 2 ∧
    s'.store.counter 0 .totalPlaylistsFound =
      twoPlaylists.store.counter 0 .totalPlaylistsFound +
        (s'.store.found "ann@mail.org" \ twoPlaylists.store.found "ann@mail.org").card := by
  obtain ⟨s', h, hend⟩ := Run.exists_of_run
    (Q := fun s' => s'.jobs.isEmpty && s'.store.counter 0 .totalPlaylistsFound = 2)
    (P := app .sample) (G := tappingUpToDate 0 "ann@mail.org" 0) (s := twoPlaylists)
    (l := oneByOne) (by decide +kernel)
  obtain ⟨hjobs, htwo⟩ := Bool.and_eq_true_iff.mp hend
  exact ⟨s', h, of_decide_eq_true htwo,
    totalPlaylistsFound_eq twoPlaylists_loaded h (List.isEmpty_iff.mp hjobs)⟩

/-- **A credit is lost** when the two chains of one tap take turns: both read the same
counter from memory, and the counter grows by one for two playlists. -/
theorem totalPlaylistsFound_lost : Loaded 0 "ann@mail.org" 0 twoPlaylists ∧ ∃ s',
    Run (app .sample) (fun _ ℓ => tapping 0 ℓ) twoPlaylists inTurns s' ∧ s'.jobs = [] ∧
    s'.store.counter 0 .totalPlaylistsFound ≠
      twoPlaylists.store.counter 0 .totalPlaylistsFound +
        (s'.store.found "ann@mail.org" \ twoPlaylists.store.found "ann@mail.org").card := by
  obtain ⟨s', h, hend⟩ := Run.exists_of_run
    (Q := fun s' => s'.jobs.isEmpty && s'.store.counter 0 .totalPlaylistsFound ≠
      twoPlaylists.store.counter 0 .totalPlaylistsFound +
        (s'.store.found "ann@mail.org" \ twoPlaylists.store.found "ann@mail.org").card)
    (P := app .sample) (G := fun _ => tapping 0) (s := twoPlaylists) (l := inTurns)
    (by decide +kernel)
  obtain ⟨hjobs, hne⟩ := Bool.and_eq_true_iff.mp hend
  exact ⟨twoPlaylists_loaded, s', h, List.isEmpty_iff.mp hjobs, of_decide_eq_true hne⟩

end SpotiFriend

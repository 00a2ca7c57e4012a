import Mathlib.Data.Set.Insert
import Mathlib.Logic.Function.Basic
import SpotiFriend.Async.Refinement

/-!
# A board

Things are posted on a board, the old ones come off, and whoever has found one is written
down on it.  `Board.Step` says how an input takes a board to another, all postings at once;
an input that `misses` may leave any of them as it was.

* `Posting.Grows`: what is posted stays the same, and nobody is crossed out;
* `Board.steps_grow`: a posting that has been there is no other one later;
* `Board.finders_of_steps`: when nothing is missed, its finders are those it had and those who
  have come by, in whatever order and however often.
-/

namespace Store

variable {Key Content Finder Moment : Type}

structure Posting (Content Finder : Type) where
  content : Content
  found : Option (Set Finder)

namespace Posting

variable {x y z : Posting Content Finder}

def mark (a : Finder) (x : Posting Content Finder) : Posting Content Finder :=
  ⟨x.content, x.found.map (insert a)⟩

structure Grows (x y : Posting Content Finder) : Prop where
  content : y.content = x.content
  found : ∀ F, x.found = some F → ∃ F', y.found = some F' ∧ F ⊆ F'

theorem Grows.refl (x : Posting Content Finder) : x.Grows x :=
  ⟨rfl, fun F hF => ⟨F, hF, subset_rfl⟩⟩

theorem Grows.trans (h : x.Grows y) (h' : y.Grows z) : x.Grows z := by
  refine ⟨h'.content.trans h.content, fun F hF => ?_⟩
  obtain ⟨F', hF', hsub⟩ := h.found F hF
  obtain ⟨F'', hF'', hsub'⟩ := h'.found F' hF'
  exact ⟨F'', hF'', hsub.trans hsub'⟩

theorem grows_mark (a : Finder) (x : Posting Content Finder) : x.Grows (x.mark a) := by
  refine ⟨rfl, fun F hF => ⟨insert a F, ?_, Set.subset_insert a F⟩⟩
  rw [mark, hF, Option.map_some]

end Posting

/-- The postings, and the keys that have ever been used. -/
@[ext]
structure Board (Key Content Finder : Type) where
  posting : Key → Option (Posting Content Finder)
  used : Set Key
  known : ∀ k, k ∉ used → posting k = none

namespace Board

/-- What is asked for.  What is posted has its moment on it, and what is old depends on the
moment too. -/
inductive Input (Content Finder Moment : Type)
  | post (content : Moment → Content)
  | find (here : Content → Prop) (a : Finder)
  | expire (old : Moment → Content → Prop)

open Classical in
noncomputable def Input.on (m : Moment) :
    Input Content Finder Moment → Posting Content Finder → Option (Posting Content Finder)
  | .post _, x => some x
  | .find here a, x => if here x.content then some (x.mark a) else some x
  | .expire old, x => if old m x.content then none else some x

variable [DecidableEq Key]

/-- An input is taken at some moment.  When it `misses` something, each posting may be as it
was, or not be there at all. -/
inductive Step (misses : Board Key Content Finder → Input Content Finder Moment → Prop)
    (B : Board Key Content Finder) :
    Input Content Finder Moment → Board Key Content Finder → Prop
  | posted {content : Moment → Content} {B' : Board Key Content Finder} (k : Key) (m : Moment)
      (new : k ∉ B.used) (hused : B'.used = insert k B.used)
      (hposting : B'.posting = Function.update B.posting k (some ⟨content m, some ∅⟩)) :
      Step misses B (.post content) B'
  | missed {content : Moment → Content} (h : misses B (.post content)) :
      Step misses B (.post content) B
  | changed {i : Input Content Finder Moment} {B' : Board Key Content Finder} (m : Moment)
      (hpost : ∀ content, i ≠ .post content) (hused : B'.used = B.used)
      (h : ∀ k, B'.posting k = (B.posting k).bind (i.on m) ∨
        misses B i ∧ B'.posting k = B.posting k) : Step misses B i B'

variable {misses : Board Key Content Finder → Input Content Finder Moment → Prop}
  {B B' : Board Key Content Finder} {i : Input Content Finder Moment} {k : Key}
  {x y : Posting Content Finder}

omit [DecidableEq Key] in
theorem Input.on_grows {m : Moment} (h : i.on m x = some y) : x.Grows y := by
  cases i with
  | post content =>
    obtain rfl := Option.some.inj h
    exact .refl x
  | find here a =>
    rw [Input.on] at h
    split at h
    · obtain rfl := Option.some.inj h
      exact Posting.grows_mark a x
    · obtain rfl := Option.some.inj h
      exact .refl x
  | expire old =>
    rw [Input.on] at h
    split at h
    · cases h
    · obtain rfl := Option.some.inj h
      exact .refl x

/-- A posting stays what it is until it is taken off, and its key is not used again. -/
theorem Step.grows (h : Step misses B i B') (hk : k ∈ B.used) : k ∈ B'.used ∧
    ∀ y, B'.posting k = some y → ∃ x, B.posting k = some x ∧ x.Grows y := by
  cases h with
  | posted k' m new hused hposting =>
    refine ⟨hused ▸ Set.mem_insert_of_mem k' hk, fun y hy => ⟨y, ?_, .refl y⟩⟩
    have hne : k ≠ k' := by
      rintro rfl
      exact new hk
    rwa [hposting, Function.update_of_ne hne] at hy
  | missed => exact ⟨hk, fun y hy => ⟨y, hy, .refl y⟩⟩
  | changed m hpost hused h =>
    refine ⟨hused ▸ hk, fun y hy => ?_⟩
    rcases h k with hon | ⟨-, hsame⟩
    · rw [hon] at hy
      obtain ⟨x, hx, hxy⟩ := Option.bind_eq_some_iff.mp hy
      exact ⟨x, hx, Input.on_grows hxy⟩
    · exact ⟨y, hsame ▸ hy, .refl y⟩

/-! ### Runs -/

variable {is : List (Input Content Finder Moment)}

/-- **A posting stays what it is** in every run, whatever is missed. -/
theorem steps_grow (h : Async.Steps (Step misses) B is B') (hk : k ∈ B.used) :
    ∀ y, B'.posting k = some y → ∃ x, B.posting k = some x ∧ x.Grows y := by
  induction h with
  | nil B => exact fun y hy => ⟨y, hy, .refl y⟩
  | cons move _ ih =>
    intro y hy
    obtain ⟨hk', hgrows⟩ := move.grows hk
    obtain ⟨x', hx', hxy'⟩ := ih hk' y hy
    obtain ⟨x, hx, hxx'⟩ := hgrows x' hx'
    exact ⟨x, hx, hxx'.trans hxy'⟩

def Exact (B : Board Key Content Finder) (i : Input Content Finder Moment)
    (B' : Board Key Content Finder) : Prop := Step (fun _ _ => False) B i B'

theorem Step.exact (h : Step misses B i B') (hm : ¬ misses B i) : Exact B i B' := by
  cases h with
  | posted k m new hused hposting => exact .posted k m new hused hposting
  | missed h => exact absurd h hm
  | changed m hpost hused h =>
    exact .changed m hpost hused (fun k => Or.inl ((h k).resolve_right (fun hand => hm hand.1)))

def visitors (is : List (Input Content Finder Moment)) (content : Content) : Set Finder :=
  {a | ∃ here, .find here a ∈ is ∧ here content}

theorem mem_visitors {a : Finder} {content : Content} :
    a ∈ visitors is content ↔ ∃ here, .find here a ∈ is ∧ here content := Iff.rfl

theorem visitors_cons {content : Content} :
    visitors (i :: is) content = visitors [i] content ∪ visitors is content := by
  refine Set.ext (fun a => ?_)
  simp only [Set.mem_union, mem_visitors, List.mem_cons, List.not_mem_nil, or_false, or_and_right,
    exists_or]

omit [DecidableEq Key] in
theorem Input.on_visitors {m : Moment} (h : i.on m x = some y) : y.content = x.content ∧
    y.found = x.found.map (visitors [i] x.content ∪ ·) := by
  have hnobody : (∀ here a, i = .find here a → ¬ here x.content) →
      x.found = x.found.map (visitors [i] x.content ∪ ·) := by
    intro hi
    have hempty : visitors [i] x.content = ∅ := by
      refine Set.eq_empty_iff_forall_notMem.mpr (fun a ha => ?_)
      obtain ⟨here, hmem, hhere⟩ := ha
      exact hi here a (List.mem_singleton.mp hmem).symm hhere
    rw [hempty]
    simp
  cases i with
  | post content =>
    obtain rfl := Option.some.inj h
    exact ⟨rfl, hnobody (fun here a hi => by cases hi)⟩
  | find here a =>
    rw [Input.on] at h
    split at h
    · next hhere =>
      obtain rfl := Option.some.inj h
      have hself : visitors ([.find here a] : List (Input Content Finder Moment)) x.content = {a} := by
        refine Set.ext (fun a' => ⟨?_, ?_⟩)
        · rintro ⟨here', hi, -⟩
          cases List.mem_singleton.mp hi
          rfl
        · rintro rfl
          exact ⟨here, List.mem_singleton_self _, hhere⟩
      rw [hself]
      exact ⟨rfl, rfl⟩
    · next hhere =>
      obtain rfl := Option.some.inj h
      refine ⟨rfl, hnobody (fun here' a' hi hhere' => ?_)⟩
      cases hi
      exact hhere hhere'
  | expire old =>
    rw [Input.on] at h
    split at h
    · cases h
    · obtain rfl := Option.some.inj h
      exact ⟨rfl, hnobody (fun here a hi => by cases hi)⟩

theorem Exact.visitors (h : Exact B i B') (hk : k ∈ B.used) (hx : B.posting k = some x)
    (hy : B'.posting k = some y) :
    y.content = x.content ∧ y.found = x.found.map (visitors [i] x.content ∪ ·) := by
  cases h with
  | @posted content _ k' m new hused hposting =>
    have hne : k ≠ k' := by
      rintro rfl
      exact new hk
    rw [hposting, Function.update_of_ne hne, hx] at hy
    exact Input.on_visitors (m := m) hy
  | missed h => exact h.elim
  | changed m hpost hused h =>
    rcases h k with hon | ⟨hfalse, -⟩
    · rw [hon, hx] at hy
      exact Input.on_visitors hy
    · exact hfalse.elim

/-- **The finders of a posting** after a run that misses nothing. -/
theorem finders_of_steps (h : Async.Steps Exact B is B') : k ∈ B.used → ∀ {x y},
    B.posting k = some x → B'.posting k = some y →
    y.content = x.content ∧ y.found = x.found.map (visitors is x.content ∪ ·) := by
  induction h with
  | nil B =>
    intro hk x y hx hy
    obtain rfl := Option.some.inj (hx.symm.trans hy)
    refine ⟨rfl, ?_⟩
    simp [visitors]
  | @cons B B₁ B' i is move rest ih =>
    intro hk x y hx hy
    obtain ⟨hk₁, -⟩ := Step.grows move hk
    obtain ⟨x₁, hx₁, -⟩ := steps_grow rest hk₁ y hy
    obtain ⟨hcontent, hfound⟩ := move.visitors hk hx hx₁
    obtain ⟨hcontent', hfound'⟩ := ih hk₁ hx₁ hy
    refine ⟨hcontent'.trans hcontent, ?_⟩
    have hcons : visitors (i :: is) x.content = visitors [i] x.content ∪ visitors is x.content :=
      visitors_cons
    rw [hfound', hfound, Option.map_map, hcontent, hcons]
    refine congrArg (fun f => x.found.map f) (funext fun F => ?_)
    show visitors is x.content ∪ (visitors [i] x.content ∪ F) = _
    rw [← Set.union_assoc, Set.union_comm (visitors is x.content)]

end Board

end Store

import Mathlib.Data.List.Basic

/-!
# Substrings of a list

`hasInfix` is the substring test, `cut` and `cutLast` split at the first and at the last
occurrence of one element, and `components` splits at every occurrence of a separator, read
from left to right without overlaps.

* `hasInfix_append_cons`: a substring lies on one side of an element that it does not have;
* `components_append`: the first occurrence of a separator, and what comes after it;
* `components_append_of_notMem`: no occurrence begins where the separator's first element is
  missing.
-/

namespace Text

theorem forall_of_all {α : Type} {p : α → Prop} [DecidablePred p] {l : List α}
    (h : l.all (fun x => decide (p x)) = true) : ∀ x ∈ l, p x :=
  fun x hx => of_decide_eq_true (List.all_eq_true.mp h x hx)

variable {α : Type} [DecidableEq α]

/-- `pat` occurs somewhere in the list. -/
def hasInfix (pat : List α) : List α → Bool
  | [] => pat.isEmpty
  | c :: s => pat.isPrefixOf (c :: s) || hasInfix pat s

/-- The part before the first `c`, and the part after it if there is one. -/
def cut (c : α) : List α → List α × Option (List α)
  | [] => ([], none)
  | x :: s =>
    if x = c then ([], some s)
    else
      let (before, after) := cut c s
      (x :: before, after)

/-- The parts before and after the last `c`, if there is one. -/
def cutLast (c : α) (s : List α) : Option (List α × List α) :=
  match cut c s.reverse with
  | (after, some before) => some (before.reverse, after.reverse)
  | (_, none) => none

def consFirst (c : α) : List (List α) → List (List α)
  | [] => [[c]]
  | p :: ps => (c :: p) :: ps

/-- The parts between the occurrences of `sep`; the first argument counts the
elements of an occurrence that are still to be passed over. -/
def componentsFrom (sep : List α) : ℕ → List α → List (List α)
  | _, [] => [[]]
  | k + 1, _ :: s => componentsFrom sep k s
  | 0, c :: s =>
    if sep.isPrefixOf (c :: s) then [] :: componentsFrom sep (sep.length - 1) s
    else consFirst c (componentsFrom sep 0 s)

/-- The parts between the occurrences of `sep`. -/
def components (sep s : List α) : List (List α) := componentsFrom sep 0 s

example : components "ab".toList "xabyabz".toList = ["x".toList, "y".toList, "z".toList] := by
  decide

theorem hasInfix_iff {pat : List α} : ∀ {s : List α},
    hasInfix pat s = true ↔ ∃ a b, s = a ++ pat ++ b := by
  intro s
  induction s with
  | nil =>
    rw [hasInfix, List.isEmpty_iff]
    constructor
    · rintro rfl
      exact ⟨[], [], rfl⟩
    · rintro ⟨a, b, h⟩
      simp only [List.append_assoc, List.nil_eq, List.append_eq_nil_iff] at h
      exact h.2.1
  | cons c s ih =>
    rw [hasInfix, Bool.or_eq_true, List.isPrefixOf_iff_prefix, ih]
    constructor
    · rintro (⟨b, h⟩ | ⟨a, b, rfl⟩)
      · exact ⟨[], b, by rw [List.nil_append, h]⟩
      · exact ⟨c :: a, b, rfl⟩
    · rintro ⟨a, b, h⟩
      cases a with
      | nil => exact .inl ⟨b, by rw [h, List.nil_append]⟩
      | cons x a =>
        simp only [List.cons_append, List.cons.injEq] at h
        exact .inr ⟨a, b, h.2⟩

theorem cut_none {c : α} : ∀ {s a : List α}, cut c s = (a, none) ↔ s = a ∧ c ∉ s := by
  intro s
  induction s with
  | nil => intro a; simp [cut, eq_comm]
  | cons x s ih =>
    intro a
    by_cases hx : x = c
    · simp [cut, hx]
    · rw [cut, if_neg hx]
      constructor
      · intro h
        simp only [Prod.mk.injEq] at h
        obtain ⟨h₁, h₂⟩ := ih.mp (Prod.ext rfl h.2 : cut c s = ((cut c s).1, none))
        refine ⟨by rw [← h.1, ← h₁], ?_⟩
        rintro (_ | ⟨_, hc⟩)
        · exact hx rfl
        · exact h₂ hc
      · rintro ⟨rfl, hc⟩
        rw [ih.mpr ⟨rfl, fun h => hc (List.mem_cons_of_mem x h)⟩]

theorem cut_some {c : α} : ∀ {s a b : List α},
    cut c s = (a, some b) ↔ s = a ++ c :: b ∧ c ∉ a := by
  intro s
  induction s with
  | nil => intro a b; simp [cut]
  | cons x s ih =>
    intro a b
    by_cases hx : x = c
    · rw [cut, if_pos hx]
      subst hx
      constructor
      · intro h
        cases h
        exact ⟨rfl, List.not_mem_nil⟩
      · rintro ⟨h, hc⟩
        cases a with
        | nil => cases h; rfl
        | cons y a =>
          simp only [List.cons_append, List.cons.injEq] at h
          exact absurd (h.1 ▸ List.mem_cons_self) hc
    · rw [cut, if_neg hx]
      constructor
      · intro h
        simp only [Prod.mk.injEq] at h
        obtain ⟨h₁, h₂⟩ := ih.mp (Prod.ext rfl h.2 : cut c s = ((cut c s).1, some b))
        refine ⟨by rw [← h.1, List.cons_append, ← h₁], ?_⟩
        rw [← h.1]
        rintro (_ | ⟨_, hc⟩)
        · exact hx rfl
        · exact h₂ hc
      · rintro ⟨h, hc⟩
        cases a with
        | nil => cases h; exact absurd rfl hx
        | cons y a =>
          simp only [List.cons_append, List.cons.injEq] at h
          obtain ⟨rfl, rfl⟩ := h
          rw [ih.mpr ⟨rfl, fun h => hc (List.mem_cons_of_mem _ h)⟩]

theorem cutLast_eq_some {c : α} {s a b : List α} :
    cutLast c s = some (a, b) ↔ s = a ++ c :: b ∧ c ∉ b := by
  have hcut : cutLast c s = some (a, b) ↔ cut c s.reverse = (b.reverse, some a.reverse) := by
    rw [cutLast]
    cases h : cut c s.reverse with
    | mk after before =>
      cases before with
      | none => simp
      | some before =>
        simp only [Option.some.injEq, Prod.mk.injEq, List.reverse_eq_iff]
        exact and_comm
  rw [hcut, cut_some, List.mem_reverse, List.reverse_eq_iff]
  simp

/-! ### Substrings of a joined list -/

theorem isPrefixOf_append_cons {c : α} : ∀ {pat a b : List α}, c ∉ pat →
    pat.isPrefixOf (a ++ c :: b) = pat.isPrefixOf a := by
  intro pat
  induction pat with
  | nil => exact fun _ => rfl
  | cons x pat ih =>
    intro a b hc
    cases a with
    | nil =>
      show (x == c && pat.isPrefixOf b) = false
      rw [beq_false_of_ne (List.ne_of_not_mem_cons hc).symm]
      rfl
    | cons y a =>
      rw [List.cons_append, List.isPrefixOf, List.isPrefixOf,
        ih (fun h => hc (List.mem_cons_of_mem x h))]

/-- A list without `c` occurs on one side of `c`. -/
theorem hasInfix_append_cons {pat : List α} {c : α} (hc : c ∉ pat) (a b : List α) :
    hasInfix pat (a ++ c :: b) = (hasInfix pat a || hasInfix pat b) := by
  induction a with
  | nil =>
    rw [List.nil_append, hasInfix, hasInfix]
    cases pat with
    | nil => rfl
    | cons x pat =>
      rw [List.isPrefixOf, beq_false_of_ne (List.ne_of_not_mem_cons hc).symm]
      rfl
  | cons x a ih =>
    rw [List.cons_append, hasInfix, hasInfix, ih, ← List.cons_append, isPrefixOf_append_cons hc,
      Bool.or_assoc]

/-! ### Components -/

theorem componentsFrom_ne_nil (sep : List α) : ∀ (s : List α) (k : ℕ), componentsFrom sep k s ≠ [] := by
  intro s
  induction s with
  | nil => exact fun k => by rw [componentsFrom]; exact List.cons_ne_nil _ _
  | cons c s ih =>
    intro k
    cases k with
    | succ k => exact ih k
    | zero =>
      rw [componentsFrom]
      split
      · exact List.cons_ne_nil _ _
      · cases h : componentsFrom sep 0 s with
        | nil => exact List.cons_ne_nil _ _
        | cons p ps => exact List.cons_ne_nil _ _

theorem componentsFrom_append (sep : List α) : ∀ (x s : List α),
    componentsFrom sep x.length (x ++ s) = componentsFrom sep 0 s := by
  intro x
  induction x with
  | nil => exact fun s => rfl
  | cons c x ih => exact fun s => ih s

theorem components_cons {sep s : List α} {c : α} (h : sep.isPrefixOf (c :: s) = false) :
    components sep (c :: s) = consFirst c (components sep s) := by
  rw [components, componentsFrom, if_neg (by rw [h]; exact Bool.false_ne_true)]
  rfl

theorem components_self {sep : List α} (hsep : sep ≠ []) (s : List α) :
    components sep (sep ++ s) = [] :: components sep s := by
  cases sep with
  | nil => exact absurd rfl hsep
  | cons c sep =>
    rw [components, List.cons_append, componentsFrom, if_pos (by simp)]
    exact congrArg _ (componentsFrom_append (c :: sep) sep s)

/-- **The first occurrence of the separator**: what is before it is the first part. -/
theorem components_append {sep : List α} (hsep : sep ≠ []) : ∀ {a : List α},
    hasInfix sep (a ++ sep.dropLast) = false → ∀ s : List α,
    components sep (a ++ (sep ++ s)) = a :: components sep s := by
  intro a
  induction a with
  | nil => exact fun _ s => components_self hsep s
  | cons c a ih =>
    intro h s
    rw [List.cons_append, hasInfix, Bool.or_eq_false_iff] at h
    have hfirst : sep.isPrefixOf (c :: (a ++ (sep ++ s))) = false := by
      rw [Bool.eq_false_iff, ne_eq, List.isPrefixOf_iff_prefix] at h ⊢
      refine fun hprefix => h.1 (List.prefix_of_prefix_length_le hprefix ?_ ?_)
      · rw [List.prefix_cons_inj, List.prefix_append_right_inj]
        exact (List.dropLast_prefix sep).trans (List.prefix_append sep s)
      · rw [List.length_cons, List.length_append, List.length_dropLast]
        omega
    rw [List.cons_append, components_cons hfirst, ih h.2 s]
    rfl

/-- **No occurrence begins** where the first element of the separator is missing. -/
theorem components_append_of_notMem (x : α) (sep : List α) : ∀ {a : List α}, x ∉ a → ∀ s : List α,
    ∃ first rest, components (x :: sep) s = first :: rest ∧
      components (x :: sep) (a ++ s) = (a ++ first) :: rest := by
  intro a
  induction a with
  | nil =>
    intro _ s
    cases h : components (x :: sep) s with
    | nil => exact absurd h (componentsFrom_ne_nil _ _ _)
    | cons first rest => exact ⟨first, rest, rfl, h⟩
  | cons c a ih =>
    intro hx s
    obtain ⟨first, rest, hs, ha⟩ := ih (fun h => hx (List.mem_cons_of_mem c h)) s
    refine ⟨first, rest, hs, ?_⟩
    rw [List.cons_append, components_cons, ha]
    · rfl
    · rw [List.isPrefixOf, beq_false_of_ne (List.ne_of_not_mem_cons hx)]
      rfl

end Text

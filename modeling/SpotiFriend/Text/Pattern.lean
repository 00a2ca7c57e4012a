import Mathlib.Data.List.Basic

/-!
# Patterns of character classes

A regular expression without alternatives or groups is a list of pieces, each a
class of characters with bounds on its repetitions: `[a-z]+`, `@`, `[0-9]{2,4}`.
`fullMatch` is the match of the entire text: some way to cut the text into as many
parts as there are pieces, each part made of its piece's characters in an allowed
number.
-/

namespace Text

structure Piece where
  ok : Char → Bool
  least : ℕ
  most : Option ℕ

namespace Piece

def once (ok : Char → Bool) : Piece := ⟨ok, 1, some 1⟩

def plus (ok : Char → Bool) : Piece := ⟨ok, 1, none⟩

/-- The class `m` to `n` times. -/
def times (ok : Char → Bool) (m n : ℕ) : Piece := ⟨ok, m, some n⟩

def allows (p : Piece) (k : ℕ) : Bool := p.least ≤ k && p.most.all (fun n => k ≤ n)

end Piece

/-- The whole text matches the pieces, one after the other. -/
def fullMatch : List Piece → List Char → Bool
  | [], s => s.isEmpty
  | p :: ps, s =>
    (List.range (s.length + 1)).any (fun k =>
      p.allows k && (s.take k).all p.ok && fullMatch ps (s.drop k))

theorem fullMatch_cons {p : Piece} {ps : List Piece} {s : List Char} :
    fullMatch (p :: ps) s = true ↔ ∃ a b, s = a ++ b ∧ p.allows a.length = true ∧
      (∀ c ∈ a, p.ok c = true) ∧ fullMatch ps b = true := by
  rw [fullMatch, List.any_eq_true]
  constructor
  · rintro ⟨k, hk, h⟩
    simp only [Bool.and_eq_true, List.all_eq_true] at h
    have hlen : (s.take k).length = k := by
      rw [List.length_take]
      have := List.mem_range.mp hk
      omega
    exact ⟨s.take k, s.drop k, (List.take_append_drop k s).symm, by rw [hlen]; exact h.1.1,
      h.1.2, h.2⟩
  · rintro ⟨a, b, rfl, hn, hok, hrest⟩
    refine ⟨a.length, List.mem_range.mpr (by rw [List.length_append]; omega), ?_⟩
    rw [List.take_left, List.drop_left, hn, hrest, List.all_eq_true.mpr hok]
    rfl

section

variable {ok : Char → Bool} {ps : List Piece} {s : List Char}

@[simp] theorem fullMatch_nil : fullMatch [] s = true ↔ s = [] := List.isEmpty_iff

theorem fullMatch_once : fullMatch (.once ok :: ps) s = true ↔
    ∃ c b, s = c :: b ∧ ok c = true ∧ fullMatch ps b = true := by
  rw [fullMatch_cons]
  constructor
  · rintro ⟨a, b, rfl, hn, hok, hrest⟩
    rw [Piece.allows, Bool.and_eq_true] at hn
    obtain ⟨c, rfl⟩ := List.length_eq_one_iff.mp
      (Nat.le_antisymm (of_decide_eq_true hn.2) (of_decide_eq_true hn.1))
    exact ⟨c, b, rfl, hok c List.mem_cons_self, hrest⟩
  · rintro ⟨c, b, rfl, hok, hrest⟩
    exact ⟨[c], b, rfl, rfl, fun c' hc' => by rw [List.mem_singleton.mp hc']; exact hok, hrest⟩

theorem fullMatch_plus : fullMatch (.plus ok :: ps) s = true ↔
    ∃ a b, s = a ++ b ∧ a ≠ [] ∧ (∀ c ∈ a, ok c = true) ∧ fullMatch ps b = true := by
  have hallows : ∀ a : List Char, (Piece.plus ok).allows a.length = true ↔ a ≠ [] := by
    intro a
    rw [← List.length_pos_iff]
    simp [Piece.allows, Piece.plus, Nat.succ_le_iff]
  rw [fullMatch_cons]
  simp only [hallows]
  rfl

theorem fullMatch_times {m n : ℕ} : fullMatch (.times ok m n :: ps) s = true ↔
    ∃ a b, s = a ++ b ∧ (m ≤ a.length ∧ a.length ≤ n) ∧ (∀ c ∈ a, ok c = true) ∧
      fullMatch ps b = true := by
  have hallows : ∀ a : List Char, (Piece.times ok m n).allows a.length = true ↔
      m ≤ a.length ∧ a.length ≤ n := by
    intro a
    rw [Piece.allows, Bool.and_eq_true]
    exact and_congr decide_eq_true_iff decide_eq_true_iff
  rw [fullMatch_cons]
  simp only [hallows]
  rfl

end

end Text

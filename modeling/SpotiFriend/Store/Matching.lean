import Mathlib.Logic.Function.Basic

/-!
# Matching collections

Two collections of records match when they hold the same records and no two records of
one collection have the same key.  A record is what the two collections have in common;
`A i = some v` says that the record `i` of the collection `A` is `v`.

`Matched.update_iff` is the account of a change on both sides: where partners are
replaced, or new records are added on both sides, the collections match again if and
only if both sides get the same.  `Matched.update_apart_iff` is the case that the places
are no partners.
-/

namespace Store

variable {ι δ V K : Type} {key : V → K} {A A' : ι → Option V} {D D' : δ → Option V}

def Keyed (key : V → K) (A : ι → Option V) : Prop :=
  ∀ i i' v v', A i = some v → A i' = some v' → key v = key v' → i = i'

structure Matched (key : V → K) (A : ι → Option V) (D : δ → Option V) : Prop where
  left : Keyed key A
  right : Keyed key D
  same : ∀ v, (∃ i, A i = some v) ↔ ∃ d, D d = some v

/-- No record but the one at `i` has the key of `x`. -/
def FreshFor (key : V → K) (A : ι → Option V) (i : ι) (x : Option V) : Prop :=
  ∀ i' v v', A i' = some v → x = some v' → key v = key v' → i' = i

theorem freshFor_none {i : ι} : FreshFor key A i none := fun _ _ _ _ h => nomatch h

theorem Keyed.freshFor (h : Keyed key A) {i : ι} {v : V} (hi : A i = some v) {x : Option V}
    (hx : ∀ v', x = some v' → key v' = key v) : FreshFor key A i x :=
  fun i' w w' hi' hw' hkey => h i' i w v hi' hi (hkey.trans (hx w' hw'))

namespace Keyed

variable [DecidableEq ι] {i : ι} {x : Option V}

theorem update (h : Keyed key A) (hx : FreshFor key A i x) : Keyed key (Function.update A i x) := by
  intro i₁ i₂ v₁ v₂ h₁ h₂ hkey
  by_cases hi₁ : i₁ = i
  · subst hi₁
    by_cases hi₂ : i₂ = i₁
    · exact hi₂.symm
    · rw [Function.update_self] at h₁
      rw [Function.update_of_ne hi₂] at h₂
      exact (hx i₂ v₂ v₁ h₂ h₁ hkey.symm).symm
  · rw [Function.update_of_ne hi₁] at h₁
    by_cases hi₂ : i₂ = i
    · subst hi₂
      rw [Function.update_self] at h₂
      exact hx i₁ v₁ v₂ h₁ h₂ hkey
    · rw [Function.update_of_ne hi₂] at h₂
      exact h i₁ i₂ v₁ v₂ h₁ h₂ hkey

end Keyed

namespace Matched

theorem symm (h : Matched key A D) : Matched key D A := ⟨h.right, h.left, fun v => (h.same v).symm⟩

theorem partner (h : Matched key A D) {i : ι} {v : V} (hi : A i = some v) :
    ∃ d, D d = some v ∧ ∀ d' v', D d' = some v' → key v' = key v → d' = d := by
  obtain ⟨d, hd⟩ := (h.same v).mp ⟨i, hi⟩
  exact ⟨d, hd, fun d' v' hd' hkey => h.right d' d v' v hd' hd hkey⟩

/-- A key that is fresh on one side is fresh on the other. -/
theorem fresh (h : Matched key A D) {i : ι} {d : δ} (hpair : A i = D d) {x : Option V}
    (hx : FreshFor key A i x) : FreshFor key D d x := by
  intro d' v v' hd' hxv hkey
  obtain ⟨i', hi'⟩ := (h.same v).mpr ⟨d', hd'⟩
  obtain rfl := hx i' v v' hi' hxv hkey
  exact h.right d' d v v hd' (hpair.symm.trans hi') rfl

variable [DecidableEq ι] [DecidableEq δ] {i : ι} {d : δ} {x y : Option V}

theorem update_same (h : Matched key A D) (hpair : A i = D d) (hx : FreshFor key A i x) :
    Matched key (Function.update A i x) (Function.update D d x) := by
  -- a record at another place is the record of another place
  have hother : ∀ {ι δ : Type} [DecidableEq ι] [DecidableEq δ] {A : ι → Option V} {D : δ → Option V}
      {i : ι} {d : δ}, Matched key A D → A i = D d → ∀ i' v, i' ≠ i → A i' = some v →
      ∃ d', Function.update D d x d' = some v := by
    intro ι δ _ _ A D i d h hpair i' v hne hi'
    obtain ⟨d', hd', -⟩ := h.partner hi'
    refine ⟨d', ?_⟩
    rw [Function.update_of_ne, hd']
    rintro rfl
    exact hne (h.left i' i v v hi' (hpair.trans hd') rfl)
  refine ⟨h.left.update hx, h.right.update (h.fresh hpair hx), fun v => ⟨?_, ?_⟩⟩
  · rintro ⟨i', hi'⟩
    by_cases hi : i' = i
    · rw [hi, Function.update_self] at hi'
      exact ⟨d, by rw [Function.update_self, hi']⟩
    · rw [Function.update_of_ne hi] at hi'
      exact hother h hpair i' v hi hi'
  · rintro ⟨d', hd'⟩
    by_cases hd : d' = d
    · rw [hd, Function.update_self] at hd'
      exact ⟨i, by rw [Function.update_self, hd']⟩
    · rw [Function.update_of_ne hd] at hd'
      exact hother h.symm hpair.symm d' v hd hd'

/-- What one side gets at the place of a partner, the other side gets too. -/
theorem eq_of_update (h : Matched key A D) (hpair : A i = D d) (hx : FreshFor key A i x)
    (h' : Matched key (Function.update A i x) (Function.update D d y)) {v : V} (hv : x = some v) :
    y = some v := by
  obtain ⟨d', hd'⟩ := (h'.same v).mp ⟨i, by rw [Function.update_self, hv]⟩
  by_cases hd : d' = d
  · rwa [hd, Function.update_self] at hd'
  · rw [Function.update_of_ne hd] at hd'
    obtain ⟨i', hi'⟩ := (h.same v).mpr ⟨d', hd'⟩
    obtain rfl := hx i' v v hi' hv rfl
    exact absurd (h.right d' d v v hd' (hpair.symm.trans hi') rfl) hd

/-- **Changing partners**: the collections match again if and only if both sides get the
same. -/
theorem update_iff (h : Matched key A D) (hpair : A i = D d) (hx : FreshFor key A i x) :
    Matched key (Function.update A i x) (Function.update D d y) ↔ x = y := by
  constructor
  · intro h'
    cases hv : x with
    | some v => exact (h.eq_of_update hpair hx h' hv).symm
    | none =>
      cases hw : y with
      | none => rfl
      | some w =>
        -- the record `w` would stand for nothing on the other side
        subst hv
        obtain ⟨i', hi'⟩ := (h'.same w).mpr ⟨d, by rw [Function.update_self, hw]⟩
        by_cases hi : i' = i
        · rw [hi, Function.update_self] at hi'
          cases hi'
        · rw [Function.update_of_ne hi] at hi'
          obtain ⟨d', hd', -⟩ := h.partner hi'
          have hne : d' ≠ d := by
            rintro rfl
            exact hi (h.left i' i w w hi' (hpair.trans hd') rfl)
          refine absurd (h'.right d' d w w ?_ ?_ rfl) hne
          · rw [Function.update_of_ne hne, hd']
          · rw [Function.update_self, hw]
  · rintro rfl
    exact h.update_same hpair hx

/-- **Changing records that are no partners**: the collections match again if and only if
nothing has changed. -/
theorem update_apart_iff (h : Matched key A D) {i₂ : ι} (hne : i₂ ≠ i) (hpair : A i₂ = D d)
    {v : V} (hi : A i = some v) :
    Matched key (Function.update A i x) (Function.update D d y) ↔ x = A i ∧ y = D d := by
  constructor
  · intro h'
    obtain ⟨d₁, hd₁, -⟩ := h.partner hi
    have hd : d₁ ≠ d := by
      rintro rfl
      exact hne (h.left i₂ i v v (hpair.trans hd₁) hi rfl)
    have hx : x = A i := by
      obtain ⟨i', hi'⟩ := (h'.same v).mpr ⟨d₁, by rw [Function.update_of_ne hd, hd₁]⟩
      by_cases hi'i : i' = i
      · rwa [hi'i, Function.update_self, ← hi] at hi'
      · rw [Function.update_of_ne hi'i] at hi'
        exact absurd (h.left i' i v v hi' hi rfl) hi'i
    refine ⟨hx, ?_⟩
    rw [hx, Function.update_eq_self, ← Function.update_eq_self i₂ A] at h'
    have hfresh : FreshFor key A i₂ (A i₂) := fun i' w w' hi' hw' hkey =>
      h.left i' i₂ w w' hi' hw' hkey
    rw [← (h.update_iff hpair hfresh).mp h', hpair]
  · rintro ⟨rfl, rfl⟩
    rwa [Function.update_eq_self, Function.update_eq_self]

end Matched

end Store

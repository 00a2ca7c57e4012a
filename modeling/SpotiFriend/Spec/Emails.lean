import SpotiFriend.Model.Accounts

/-!
# The emails that are accepted

`isValidEmail` searches for a way to cut the text, and the class of the domain has the dot
that the next piece asks for.  `isEmail` reads the same language without a search: it cuts at
the only `@` and then at the last dot.
-/

namespace SpotiFriend

open Text

namespace EditAccountVC

/-- A character of the part before the `@`. -/
def isUserChar (c : Char) : Bool :=
  Uri.isAlpha c || Uri.isDigit c || ['.', '_', '%', '+', '-'].contains c

/-- A character of the part between the `@` and the last dot. -/
def isDomainChar (c : Char) : Bool := Uri.isAlpha c || Uri.isDigit c || ['.', '-'].contains c

/-- One `@`, and a dot after it; the parts have the characters and lengths that they may
have. -/
def isEmail (s : List Char) : Bool :=
  s.count '@' = 1 &&
    match cut '@' s with
    | (user, some rest) => !user.isEmpty && user.all isUserChar &&
      match cutLast '.' rest with
      | some (domain, top) => !domain.isEmpty && domain.all isDomainChar &&
        (2 ≤ top.length && top.length ≤ 64) && top.all Uri.isAlpha
      | none => false
    | (_, none) => false

structure Parts (user domain top : List Char) : Prop where
  user_ne : user ≠ []
  user_ok : ∀ c ∈ user, isUserChar c = true
  domain_ne : domain ≠ []
  domain_ok : ∀ c ∈ domain, isDomainChar c = true
  top_length : 2 ≤ top.length ∧ top.length ≤ 64
  top_ok : ∀ c ∈ top, Uri.isAlpha c = true

variable {s user domain top : List Char}

/-- **What the pattern matches**, for some way to cut the text. -/
theorem fullMatch_email : fullMatch regularExpressionForEmail s = true ↔
    ∃ user domain top, s = user ++ '@' :: (domain ++ '.' :: top) ∧ Parts user domain top := by
  rw [regularExpressionForEmail, fullMatch_plus]
  constructor
  · rintro ⟨user, b₁, rfl, huser, huserok, h₁⟩
    obtain ⟨at', b₂, rfl, hat, h₂⟩ := fullMatch_once.mp h₁
    obtain ⟨domain, b₃, rfl, hdomain, hdomainok, h₃⟩ := fullMatch_plus.mp h₂
    obtain ⟨dot, b₄, rfl, hdot, h₄⟩ := fullMatch_once.mp h₃
    obtain ⟨top, b₅, rfl, hlength, htopok, h₅⟩ := fullMatch_times.mp h₄
    rw [fullMatch_nil.mp h₅, List.append_nil, of_decide_eq_true hat, of_decide_eq_true hdot]
    exact ⟨user, domain, top, rfl, huser, huserok, hdomain, hdomainok, hlength, htopok⟩
  · rintro ⟨user, domain, top, rfl, h⟩
    refine ⟨user, _, rfl, h.user_ne, h.user_ok, fullMatch_once.mpr ⟨_, _, rfl, rfl, ?_⟩⟩
    refine fullMatch_plus.mpr ⟨domain, _, rfl, h.domain_ne, h.domain_ok, ?_⟩
    refine fullMatch_once.mpr ⟨_, _, rfl, rfl, fullMatch_times.mpr ?_⟩
    exact ⟨top, [], (List.append_nil top).symm, h.top_length, h.top_ok, rfl⟩

namespace Parts

theorem count_at (h : Parts user domain top) :
    (user ++ '@' :: (domain ++ '.' :: top)).count '@' = 1 := by
  have hnone : ∀ {l : List Char} {ok : Char → Bool}, ok '@' = false → (∀ c ∈ l, ok c = true) →
      l.count '@' = 0 := by
    intro l ok hat hl
    refine List.count_eq_zero.mpr (fun hmem => ?_)
    rw [hl _ hmem] at hat
    cases hat
  rw [List.count_append, List.count_cons_self, List.count_append,
    List.count_cons_of_ne (by decide), hnone (by decide) h.user_ok, hnone (by decide) h.domain_ok,
    hnone (by decide) h.top_ok]

theorem dot_notMem (h : Parts user domain top) : '.' ∉ top := fun hmem => nomatch h.top_ok _ hmem

theorem at_notMem (h : Parts user domain top) : '@' ∉ user := fun hmem => nomatch h.user_ok _ hmem

end Parts

/-- **The email check reads its language**: of all the ways to cut the text, only the one at
the last dot matters. -/
theorem isValidEmail_eq (s : String) : isValidEmail s = isEmail s.toList := by
  rw [isValidEmail, Bool.eq_iff_iff, fullMatch_email]
  generalize s.toList = s
  constructor
  · rintro ⟨user, domain, top, rfl, h⟩
    rw [isEmail, h.count_at, cut_some.mpr ⟨rfl, h.at_notMem⟩]
    simp only [cutLast_eq_some.mpr ⟨rfl, h.dot_notMem⟩, List.all_eq_true.mpr h.user_ok,
      List.all_eq_true.mpr h.domain_ok, List.all_eq_true.mpr h.top_ok]
    simp [h.user_ne, h.domain_ne, h.top_length]
  · intro h
    rw [isEmail, Bool.and_eq_true] at h
    obtain ⟨-, h⟩ := h
    split at h
    · next user rest hat =>
      rw [Bool.and_eq_true, Bool.and_eq_true] at h
      obtain ⟨⟨huser, huserok⟩, h⟩ := h
      split at h
      · next domain top hdot =>
        simp only [Bool.and_eq_true, decide_eq_true_eq] at h
        obtain ⟨⟨⟨hdomain, hdomainok⟩, hlength⟩, htopok⟩ := h
        obtain ⟨rfl, -⟩ := cut_some.mp hat
        obtain ⟨rfl, -⟩ := cutLast_eq_some.mp hdot
        exact ⟨user, domain, top, rfl, by simpa using huser, List.all_eq_true.mp huserok,
          by simpa using hdomain, List.all_eq_true.mp hdomainok, hlength, List.all_eq_true.mp htopok⟩
      · cases h
    · cases h

end EditAccountVC

end SpotiFriend

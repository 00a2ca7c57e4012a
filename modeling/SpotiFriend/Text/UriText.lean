import SpotiFriend.Text.Uri

/-!
# Writing URI references down

`Reference.text` is the text of a reference, and `WellFormed` the grammar of those
that begin with a scheme and a named host.

* `text_of_parse`: what is read can be written down again, and gives the same text;
* `wellFormed_of_parse`: only what follows the grammar is read;
* `parse_text`: what follows the grammar is read as it was written.
-/

namespace Text.Uri

open Text

/-! ### Writing references down -/

/-- An optional part with what stands before it. -/
def before (c : Char) (part : Option (List Char)) : List Char := (part.map (c :: ·)).getD []

/-- An optional part with what stands after it. -/
def after (c : Char) (part : Option (List Char)) : List Char := (part.map (· ++ [c])).getD []

def Authority.text (a : Authority) : List Char :=
  after '@' a.userinfo ++ (a.host ++ before ':' a.port)

def Reference.text (r : Reference) : List Char :=
  after ':' r.scheme ++ ((r.authority.map (fun a => '/' :: '/' :: a.text)).getD [] ++
    (r.path ++ (before '?' r.query ++ before '#' r.fragment)))

/-- The grammar of the references with a scheme and a named host. -/
structure Reference.WellFormed (r : Reference) : Prop where
  scheme : ∃ s, r.scheme = some s ∧ isScheme s = true
  authority : ∃ a, r.authority = some a ∧ a.userinfo.all isUserinfo = true ∧
    isRegName a.host = true ∧ a.port.all (fun p => p.all isDigit) = true
  path : isPath r.path = true
  rooted : r.path = [] ∨ ∃ p, r.path = '/' :: p
  query : r.query.all isQuery = true
  fragment : r.fragment.all isQuery = true

theorem cut_before {c : Char} {s : List Char} (part : Option (List Char)) (h : c ∉ s) :
    cut c (s ++ before c part) = (s, part) := by
  cases part with
  | none => exact cut_none.mpr ⟨by simp [before], by simpa [before] using h⟩
  | some p => exact cut_some.mpr ⟨by simp [before], h⟩

theorem of_cut {c : Char} {s a : List Char} {part : Option (List Char)} (h : cut c s = (a, part)) :
    s = a ++ before c part := by
  cases part with
  | none => rw [(cut_none.mp h).1, before]; simp
  | some p => exact (cut_some.mp h).1

theorem escaped_append {ok : Char → Bool} (s : List Char) : ∀ {l : List Char},
    l.all (fun c => c ≠ '%' && ok c) = true → escaped ok (l ++ s) = escaped ok s := by
  intro l
  induction l with
  | nil => exact fun _ => rfl
  | cons c l ih =>
    intro h
    rw [List.all_cons, Bool.and_eq_true, Bool.and_eq_true, decide_eq_true_eq] at h
    obtain ⟨⟨hpercent, hc⟩, hl⟩ := h
    rw [List.cons_append, escaped, ih hl, hc, decide_eq_true hpercent]
    · rfl
    · exact fun _ _ _ hc _ => hpercent hc

/-- A character that occurs where the test fails on it is part of an escape. -/
theorem escaped_notMem {ok : Char → Bool} {c : Char} (hok : ok c = false) (hpercent : c ≠ '%')
    (hhex : isHexdig c = false) : ∀ {s : List Char}, escaped ok s = true → c ∉ s := by
  intro s
  induction s using escaped.induct with
  | case1 => exact fun _ => List.not_mem_nil
  | case2 a b s ih =>
    intro h hmem
    simp only [escaped, Bool.and_eq_true] at h
    obtain ⟨⟨ha, hb⟩, hs⟩ := h
    rcases List.mem_cons.mp hmem with rfl | hmem
    · exact hpercent rfl
    rcases List.mem_cons.mp hmem with rfl | hmem
    · rw [ha] at hhex
      cases hhex
    rcases List.mem_cons.mp hmem with rfl | hmem
    · rw [hb] at hhex
      cases hhex
    · exact ih hs hmem
  | case3 x s hne ih =>
    intro h hmem
    rw [escaped] at h
    · simp only [Bool.and_eq_true] at h
      rcases List.mem_cons.mp hmem with rfl | hmem
      · rw [hok] at h
        cases h.1.2
      · exact ih h.2 hmem
    · exact hne

/-! ### Reading what was written -/

theorem of_cutScheme {s rest : List Char} {scheme : Option (List Char)}
    (h : cutScheme s = (scheme, rest)) :
    s = after ':' scheme ++ rest ∧ scheme.all isScheme = true := by
  rw [cutScheme] at h
  split at h
  · next a b hcut =>
    split at h
    · next hscheme =>
      cases h
      exact ⟨by rw [(cut_some.mp hcut).1]; simp [after], hscheme⟩
    · cases h
      exact ⟨rfl, rfl⟩
  · cases h
    exact ⟨rfl, rfl⟩

theorem of_cutAuthority {s authority path : List Char} (h : cutAuthority s = (authority, path)) :
    s = authority ++ path ∧ (path = [] ∨ ∃ p, path = '/' :: p) := by
  rw [cutAuthority] at h
  split at h
  · next hcut =>
    cases h
    exact ⟨(cut_some.mp hcut).1, .inr ⟨_, rfl⟩⟩
  · next hcut =>
    cases h
    exact ⟨by rw [(cut_none.mp hcut).1, List.append_nil], .inl rfl⟩

theorem of_parseHost {userinfo : Option (List Char)} {s : List Char} {a : Authority}
    (h : parseHost userinfo s = some a) : a.userinfo = userinfo ∧ s = a.host ++ before ':' a.port ∧
      (a.host.head? = some '[' ∨ isRegName a.host = true ∧
        a.port.all (fun p => p.all isDigit) = true) := by
  unfold parseHost at h
  split at h
  · split at h
    · next hcut =>
      split at h
      · cases h
        exact ⟨rfl, by rw [(cut_some.mp hcut).1]; simp [before], .inl rfl⟩
      · cases h
    · next hcut =>
      split at h
      · cases h
        exact ⟨rfl, by rw [(cut_some.mp hcut).1]; simp [before], .inl rfl⟩
      · cases h
    · cases h
  · split at h
    · next hcut =>
      split at h
      · next hhost =>
        cases h
        exact ⟨rfl, of_cut hcut, .inr ⟨hhost, rfl⟩⟩
      · cases h
    · next hcut =>
      split at h
      · next hhost =>
        cases h
        rw [Bool.and_eq_true] at hhost
        exact ⟨rfl, of_cut hcut, .inr hhost⟩
      · cases h

theorem of_parseAuthority {s : List Char} {a : Authority} (h : parseAuthority s = some a) :
    s = a.text ∧ a.userinfo.all isUserinfo = true ∧
      (a.host.head? = some '[' ∨ isRegName a.host = true ∧
        a.port.all (fun p => p.all isDigit) = true) := by
  rw [parseAuthority] at h
  split at h
  · obtain ⟨hinfo, htext, hhost⟩ := of_parseHost h
    rw [Authority.text, hinfo]
    exact ⟨htext, rfl, hhost⟩
  · next hcut =>
    split at h
    · next huserinfo =>
      obtain ⟨hinfo, htext, hhost⟩ := of_parseHost h
      rw [Authority.text, hinfo, (cut_some.mp hcut).1, htext]
      exact ⟨by simp [after], huserinfo, hhost⟩
    · cases h

theorem of_parseHier {scheme : Option (List Char)} {s path : List Char}
    {authority : Option Authority} (h : parseHier scheme s = some (authority, path)) :
    s = (authority.map (fun a => '/' :: '/' :: a.text)).getD [] ++ path ∧ isPath path = true ∧
      ∀ a, authority = some a → (path = [] ∨ ∃ p, path = '/' :: p) ∧
        a.userinfo.all isUserinfo = true ∧ (a.host.head? = some '[' ∨ isRegName a.host = true ∧
          a.port.all (fun p => p.all isDigit) = true) := by
  unfold parseHier at h
  split at h
  · next s =>
    obtain ⟨hs, hrooted⟩ := of_cutAuthority (Prod.eta (cutAuthority s)).symm
    dsimp only at h
    split at h
    · next a ha =>
      split at h
      · next hpath =>
        cases h
        obtain ⟨htext, hhost⟩ := of_parseAuthority ha
        refine ⟨?_, hpath, fun a' ha' => ?_⟩
        · conv_lhs => rw [hs, htext]
          rfl
        · cases ha'
          exact ⟨hrooted, hhost⟩
      · cases h
    · cases h
  · split at h
    · next hpath =>
      cases h
      rw [Bool.and_eq_true] at hpath
      exact ⟨rfl, hpath.1, nofun⟩
    · cases h

theorem of_parse {text : List Char} {r : Reference} (h : parse text = some r) :
    ∃ s, text = after ':' r.scheme ++ (s ++ (before '?' r.query ++ before '#' r.fragment)) ∧
      r.scheme.all isScheme = true ∧ parseHier r.scheme s = some (r.authority, r.path) ∧
      r.query.all isQuery = true ∧ r.fragment.all isQuery = true := by
  rw [parse] at h
  dsimp only at h
  split at h
  · next authority path hier =>
    split at h
    · next hchars =>
      cases h
      rw [Bool.and_eq_true] at hchars
      obtain ⟨hs, hscheme⟩ := of_cutScheme (Prod.eta (cutScheme (cut '?' (cut '#' text).1).1)).symm
      refine ⟨_, ?_, hscheme, hier, hchars.1, hchars.2⟩
      rw [← List.append_assoc, ← hs, ← List.append_assoc,
        ← of_cut (Prod.eta (cut '?' (cut '#' text).1)).symm]
      exact of_cut (Prod.eta (cut '#' text)).symm
    · cases h
  · cases h

/-- **Writing a reference down gives the text that it was read from.** -/
theorem text_of_parse {text : List Char} {r : Reference} (h : parse text = some r) :
    r.text = text := by
  obtain ⟨s, hs, -, hier, -⟩ := of_parse h
  rw [hs, (of_parseHier hier).1, Reference.text, List.append_assoc]

/-- **A text with a scheme and a named host is read only if it follows the grammar.** -/
theorem wellFormed_of_parse {text : List Char} {r : Reference} (h : parse text = some r)
    {scheme : List Char} (hscheme : r.scheme = some scheme) {a : Authority}
    (ha : r.authority = some a) (hname : a.host.head? ≠ some '[') : r.WellFormed := by
  obtain ⟨s, -, hs, hier, hquery, hfragment⟩ := of_parse h
  obtain ⟨-, hpath, hauthority⟩ := of_parseHier hier
  obtain ⟨hrooted, huserinfo, hhost⟩ := hauthority a ha
  obtain ⟨hhost, hport⟩ := hhost.resolve_left hname
  rw [hscheme] at hs
  exact ⟨⟨scheme, hscheme, hs⟩, ⟨a, ha, huserinfo, hhost, hport⟩, hpath, hrooted, hquery, hfragment⟩

/-! ### Characters of well-formed parts -/

theorem notMem_regName {c : Char} (hc : c ∈ ['#', '?', '/', '@', ':', '[']) {s : List Char}
    (h : isRegName s = true) : c ∉ s := by
  have hall : ∀ c ∈ ['#', '?', '/', '@', ':', '['],
      (isUnreserved c || isSubDelim c) = false ∧ c ≠ '%' ∧ isHexdig c = false :=
    forall_of_all (by decide)
  obtain ⟨hok, hpercent, hhex⟩ := hall c hc
  exact escaped_notMem hok hpercent hhex h

theorem notMem_userinfo {c : Char} (hc : c ∈ ['#', '?', '/', '@']) {s : List Char}
    (h : isUserinfo s = true) : c ∉ s := by
  have hall : ∀ c ∈ ['#', '?', '/', '@'],
      (isUnreserved c || isSubDelim c || c = ':') = false ∧ c ≠ '%' ∧ isHexdig c = false :=
    forall_of_all (by decide)
  obtain ⟨hok, hpercent, hhex⟩ := hall c hc
  exact escaped_notMem hok hpercent hhex h

theorem notMem_path {c : Char} (hc : c ∈ ['#', '?']) {s : List Char} (h : isPath s = true) :
    c ∉ s := by
  have hall : ∀ c ∈ ['#', '?'], (isPchar c || c = '/') = false ∧ c ≠ '%' ∧ isHexdig c = false :=
    forall_of_all (by decide)
  obtain ⟨hok, hpercent, hhex⟩ := hall c hc
  exact escaped_notMem hok hpercent hhex h

theorem notMem_query {s : List Char} (h : isQuery s = true) : '#' ∉ s :=
  escaped_notMem (by decide) (by decide) (by decide) h

theorem notMem_digits {c : Char} (hc : isDigit c = false) {s : List Char}
    (h : s.all isDigit = true) : c ∉ s := by
  intro hmem
  rw [List.all_eq_true.mp h c hmem] at hc
  cases hc

theorem notMem_scheme {c : Char} (hc : c ∈ ['#', '?', ':']) {s : List Char}
    (h : isScheme s = true) : c ∉ s := by
  have hall : ∀ c ∈ ['#', '?', ':'],
      isAlpha c = false ∧ (isAlpha c || isDigit c || ['+', '-', '.'].contains c) = false :=
    forall_of_all (by decide)
  obtain ⟨halpha, hrest⟩ := hall c hc
  cases s with
  | nil => exact List.not_mem_nil
  | cons x s =>
    rw [isScheme, Bool.and_eq_true] at h
    intro hmem
    rcases List.mem_cons.mp hmem with rfl | hmem
    · rw [h.1] at halpha
      cases halpha
    · rw [List.all_eq_true.mp h.2 c hmem] at hrest
      cases hrest

theorem notMem_before {c d : Char} (hne : c ≠ d) {part : Option (List Char)}
    (h : ∀ p, part = some p → c ∉ p) : c ∉ before d part := by
  cases part with
  | none => exact List.not_mem_nil
  | some p => exact List.not_mem_cons_of_ne_of_not_mem hne (h p rfl)

theorem notMem_after {c d : Char} (hne : c ≠ d) {part : Option (List Char)}
    (h : ∀ p, part = some p → c ∉ p) : c ∉ after d part := by
  cases part with
  | none => exact List.not_mem_nil
  | some p =>
    show c ∉ p ++ [d]
    rw [List.mem_append, List.mem_singleton]
    exact fun hmem => hmem.elim (h p rfl) hne

/-! ### Well-formed texts are read -/

section

variable {a : Authority} (huserinfo : a.userinfo.all isUserinfo = true)
  (hhost : isRegName a.host = true) (hport : a.port.all (fun p => p.all isDigit) = true)

include hhost hport

theorem notMem_hostPort {c : Char} (hc : c ∈ ['#', '?', '/', '@']) :
    c ∉ a.host ++ before ':' a.port := by
  have hall : ∀ c ∈ ['#', '?', '/', '@'],
      c ∈ ['#', '?', '/', '@', ':', '['] ∧ c ≠ ':' ∧ isDigit c = false :=
    forall_of_all (by decide)
  obtain ⟨hreg, hcolon, hdigit⟩ := hall c hc
  rw [List.mem_append]
  rintro (hmem | hmem)
  · exact notMem_regName hreg hhost hmem
  · refine notMem_before hcolon (fun p hp => ?_) hmem
    rw [hp] at hport
    exact notMem_digits hdigit hport

theorem parseHost_text : parseHost a.userinfo (a.host ++ before ':' a.port) = some a := by
  have hcut := cut_before a.port (notMem_regName (c := ':') (by decide) hhost)
  unfold parseHost
  split
  · next s hs =>
    -- a named host does not begin with a bracket
    exfalso
    cases hcase : a.host with
    | nil =>
      rw [hcase] at hs
      cases hp : a.port with
      | none => rw [hp] at hs; cases hs
      | some p =>
        rw [hp] at hs
        exact absurd (List.cons.inj hs).1 (by decide)
    | cons x host =>
      rw [hcase] at hs
      obtain ⟨rfl, -⟩ := List.cons.inj hs
      exact notMem_regName (c := '[') (by decide) hhost (by rw [hcase]; exact List.mem_cons_self)
  · rw [hcut]
    cases hp : a.port with
    | none =>
      simp only [hhost, if_true]
      rw [← hp]
    | some p =>
      rw [hp] at hport
      simp only [hhost, Bool.true_and]
      rw [if_pos (show p.all isDigit = true from hport), ← hp]

include huserinfo

theorem notMem_authority {c : Char} (hc : c ∈ ['#', '?', '/']) : c ∉ a.text := by
  have hall : ∀ c ∈ ['#', '?', '/'], c ∈ ['#', '?', '/', '@'] ∧ c ≠ '@' :=
    forall_of_all (by decide)
  obtain ⟨hc, hat⟩ := hall c hc
  rw [Authority.text, List.mem_append]
  rintro (hmem | hmem)
  · refine notMem_after hat (fun u hu => ?_) hmem
    rw [hu] at huserinfo
    exact notMem_userinfo hc huserinfo
  · exact notMem_hostPort hhost hport hc hmem

theorem parseAuthority_text : parseAuthority a.text = some a := by
  have hread := parseHost_text hhost hport
  have hat : '@' ∉ a.host ++ before ':' a.port := notMem_hostPort hhost hport (by decide)
  rw [parseAuthority, Authority.text]
  cases hu : a.userinfo with
  | none =>
    rw [hu] at hread
    rw [show after '@' none = [] from rfl, List.nil_append, cut_none.mpr ⟨rfl, hat⟩]
    exact hread
  | some u =>
    rw [hu] at hread huserinfo
    have hcut : cut '@' (after '@' (some u) ++ (a.host ++ before ':' a.port)) =
        (u, some (a.host ++ before ':' a.port)) :=
      cut_some.mpr ⟨by simp [after], notMem_userinfo (by decide) huserinfo⟩
    rw [hcut]
    dsimp only
    rw [if_pos (by exact huserinfo)]
    exact hread

end

/-- **A text that follows the grammar is read as it was written.** -/
theorem parse_text {r : Reference} (h : r.WellFormed) : parse r.text = some r := by
  obtain ⟨⟨scheme, hscheme, hs⟩, ⟨a, ha, huserinfo, hhost, hport⟩, hpath, hrooted, hquery,
    hfragment⟩ := h
  have hauthority : ∀ c ∈ ['#', '?', '/'], c ∉ a.text :=
    fun c => notMem_authority huserinfo hhost hport
  -- the hierarchical part has no `?` and no `#`
  have hhier : ∀ c ∈ ['#', '?'], c ∉ scheme ++ ':' :: '/' :: '/' :: (a.text ++ r.path) := by
    intro c hc
    have hall : ∀ c ∈ ['#', '?'], c ∈ ['#', '?', ':'] ∧ c ∈ ['#', '?', '/'] ∧ c ≠ ':' ∧ c ≠ '/' :=
      forall_of_all (by decide)
    obtain ⟨h₁, h₂, hcolon, hslash⟩ := hall c hc
    simp only [List.mem_append, List.mem_cons, not_or]
    exact ⟨notMem_scheme h₁ hs, hcolon, hslash, hslash, hauthority c h₂, notMem_path hc hpath⟩
  have hq : '#' ∉ before '?' r.query := notMem_before (by decide) (fun q hq => by
    rw [hq] at hquery
    exact notMem_query hquery)
  have htext : r.text = (scheme ++ ':' :: '/' :: '/' :: (a.text ++ r.path) ++ before '?' r.query) ++
      before '#' r.fragment := by
    rw [Reference.text, hscheme, ha]
    simp [after]
  have hcutFragment := cut_before (c := '#') r.fragment
    (s := scheme ++ ':' :: '/' :: '/' :: (a.text ++ r.path) ++ before '?' r.query)
    (fun hmem => (List.mem_append.mp hmem).elim (hhier '#' (by decide)) hq)
  have hcutQuery := cut_before (c := '?') r.query (hhier '?' (by decide))
  have hcutScheme : cutScheme (scheme ++ ':' :: '/' :: '/' :: (a.text ++ r.path)) =
      (some scheme, '/' :: '/' :: (a.text ++ r.path)) := by
    rw [cutScheme, cut_some.mpr ⟨rfl, notMem_scheme (c := ':') (by decide) hs⟩]
    exact if_pos hs
  have hcutAuthority : cutAuthority (a.text ++ r.path) = (a.text, r.path) := by
    have hslash := hauthority '/' (by decide)
    rw [cutAuthority]
    rcases hrooted with hp | ⟨p, hp⟩
    · rw [hp, List.append_nil, cut_none.mpr ⟨rfl, hslash⟩]
    · rw [hp, cut_some.mpr ⟨rfl, hslash⟩]
  have hparts : parseHier (some scheme) ('/' :: '/' :: (a.text ++ r.path)) = some (some a, r.path) := by
    rw [parseHier]
    simp only [hcutAuthority, parseAuthority_text huserinfo hhost hport, if_pos hpath]
  rw [parse, htext]
  simp only [hcutFragment, hcutQuery, hcutScheme, hparts, hquery, hfragment, Bool.and_self, if_true]
  rw [← hscheme, ← ha]

end Text.Uri

import Mathlib.Logic.Basic
import SteamBee.Text.Search

/-! A text inside a string literal: its quotes and its backslashes are escaped, and a reader may
take back the escapes of its quotes alone. -/
namespace Text
variable {α : Type} {needle text : List Char} {c : Char}

def escape (c : Char) : List Char :=
  if c = '"' then ['\\', '"'] else if c = '\\' then ['\\', '\\'] else [c]

def escaped (text : List Char) : List Char := text.flatMap escape

def doubled (text : List Char) : List Char :=
  text.flatMap fun c => if c = '\\' then ['\\', '\\'] else [c]

theorem escaped_append (left right : List Char) :
    escaped (left ++ right) = escaped left ++ escaped right :=
  List.flatMap_append

theorem escape_ne_nil (c : Char) : escape c ≠ [] := by
  unfold escape
  split
  · exact List.cons_ne_nil _ _
  · split <;> exact List.cons_ne_nil _ _

/-! ## Taking escapes back -/

theorem replaceAll_quote (text : List Char) : replaceAll ['"'] ['"'] text = text := by
  unfold replaceAll
  induction text with
  | nil => rfl
  | cons c text ih =>
    rw [replaceFrom]
    split
    next hquote =>
      obtain rfl : '"' = c := by simpa using hquote
      exact congrArg ('"' :: ·) ih
    next => exact congrArg (c :: ·) ih

/-- What is left of a text when only the escapes of its quotes are taken back. -/
theorem replaceAll_escaped (text : List Char) :
    replaceAll ['\\', '"'] ['"'] (escaped text) = doubled text := by
  unfold replaceAll
  induction text with
  | nil => rfl
  | cons c text ih =>
    by_cases hquote : c = '"'
    · subst hquote
      exact congrArg ('"' :: ·) ih
    · by_cases hslash : c = '\\'
      · subst hslash
        show replaceFrom _ _ 0 ('\\' :: '\\' :: escaped text) = '\\' :: '\\' :: doubled text
        -- the second backslash belongs to the first, so no quote stands right behind it
        have hhead : (['\\', '"'].isPrefixOf ('\\' :: escaped text)) = false := by
          cases text with
          | nil => rfl
          | cons d text =>
            show (['\\', '"'].isPrefixOf ('\\' :: (escape d ++ escaped text))) = false
            unfold escape
            split
            · rfl
            · split
              · rfl
              next hd _ => simpa [List.isPrefixOf] using Ne.symm hd
        rw [replaceFrom, if_neg (by simp), replaceFrom, hhead, ih]
        rfl
      · have hplain : escape c = [c] := by
          unfold escape
          rw [if_neg hquote, if_neg hslash]
        have hkept : doubled (c :: text) = c :: doubled text := by
          show (if c = '\\' then ['\\', '\\'] else [c]) ++ doubled text = _
          rw [if_neg hslash]
          rfl
        have hnot : ¬ (['\\', '"'].isPrefixOf (c :: escaped text)) = true := by
          simpa [List.isPrefixOf] using fun h => absurd h.symm hslash
        show replaceFrom _ _ 0 (escape c ++ escaped text) = _
        rw [hplain, hkept, List.singleton_append, replaceFrom, if_neg hnot, ih]

/-! ## Occurrences -/

/-- Different characters have escapes of which neither begins the other. -/
theorem eq_of_escape_prefix {d : Char} {left right : List Char}
    (h : escape c ++ left <+: escape d ++ right) : c = d := by
  by_cases hc : c = '"'
  · subst hc
    by_cases hd : d = '"'
    · exact hd.symm
    · by_cases hd' : d = '\\'
      · subst hd'
        simp [escape] at h
      · simp [escape, hd, hd', Ne.symm hd'] at h
  · by_cases hc' : c = '\\'
    · subst hc'
      by_cases hd : d = '"'
      · subst hd
        simp [escape] at h
      · by_cases hd' : d = '\\'
        · exact hd'.symm
        · simp [escape, hd, hd', Ne.symm hd'] at h
    · by_cases hd : d = '"'
      · subst hd
        simp [escape, hc, hc'] at h
      · by_cases hd' : d = '\\'
        · subst hd'
          simp [escape, hc, hc'] at h
        · have hboth : c = d ∧ left <+: right := by simpa [escape, hc, hc', hd, hd'] using h
          exact hboth.1

theorem prefix_of_escaped (h : escaped needle <+: escaped text) : needle <+: text := by
  induction needle generalizing text with
  | nil => exact List.nil_prefix
  | cons c needle ih =>
    have hcons : escape c ++ escaped needle <+: escaped text := h
    cases text with
    | nil =>
      have hnil := List.prefix_nil.mp hcons
      exact absurd (List.append_eq_nil_iff.mp hnil).1 (escape_ne_nil c)
    | cons d text =>
      have hcons' : escape c ++ escaped needle <+: escape d ++ escaped text := hcons
      obtain rfl := eq_of_escape_prefix hcons'
      rw [List.cons_prefix_cons]
      exact ⟨rfl, ih ((List.prefix_append_right_inj _).mp hcons')⟩

/-- A text that begins with neither a quote nor a backslash occurs, inside a literal, only where it
was before. -/
theorem infix_of_escaped (hquote : c ≠ '"') (hslash : c ≠ '\\')
    (h : escaped (c :: needle) <:+: escaped text) : c :: needle <:+: text := by
  have hplain : escaped (c :: needle) = c :: escaped needle := by
    show escape c ++ escaped needle = _
    simp [escape, hquote, hslash]
  induction text with
  | nil =>
    rw [hplain] at h
    exact absurd (List.infix_nil.mp h) (List.cons_ne_nil _ _)
  | cons d text ih =>
    have hcons : escaped (c :: needle) <:+: escape d ++ escaped text := h
    by_cases hd : d = '"' ∨ d = '\\'
    · -- an escape has two characters, and neither is the first one of the text
      have hrest : escaped (c :: needle) <:+: escaped text := by
        rcases hd with rfl | rfl
        · simpa [escape, hplain, List.infix_cons_iff, hquote, hslash] using hcons
        · simpa [escape, hplain, List.infix_cons_iff, hslash] using hcons
      exact (ih hrest).trans (List.suffix_cons d text).isInfix
    · rw [not_or] at hd
      have hescape : escape d = [d] := by simp [escape, hd.1, hd.2]
      rw [hescape, List.singleton_append, List.infix_cons_iff] at hcons
      rcases hcons with hprefix | hinfix
      · apply List.IsPrefix.isInfix
        apply prefix_of_escaped
        show _ <+: escape d ++ escaped text
        rw [hescape]
        exact hprefix
      · exact (ih hinfix).trans (List.suffix_cons d text).isInfix

/-! ## Doubled backslashes -/

theorem doubled_cons (h : c ≠ '\\') (text : List Char) :
    doubled (c :: text) = c :: doubled text := by
  show (if c = '\\' then ['\\', '\\'] else [c]) ++ doubled text = _
  rw [if_neg h]
  rfl

/-- A text without backslashes begins a text that has them doubled where it began it before. -/
theorem behind_doubled (h : '\\' ∉ needle) (text : List Char) :
    behind needle (doubled text) = (behind needle text).map doubled := by
  induction needle generalizing text with
  | nil => rfl
  | cons c needle ih =>
    have hc : c ≠ '\\' := fun heq => h (heq ▸ List.mem_cons_self)
    have hneedle : '\\' ∉ needle := fun hmem => h (List.mem_cons_of_mem c hmem)
    cases text with
    | nil => rfl
    | cons d text =>
      by_cases hd : d = '\\'
      · subst hd
        show behind (c :: needle) ('\\' :: '\\' :: doubled text) = _
        simp [behind, List.isPrefixOf, hc]
      · have hrest := ih hneedle text
        rw [doubled_cons hd]
        unfold behind at hrest ⊢
        simp only [List.isPrefixOf_cons_cons, List.length_cons, List.drop_succ_cons]
        by_cases heq : c = d
        · subst heq
          simpa using hrest
        · simp [heq]

/-- What is asked of the digits of a text, and of what follows them, does not ask for
backslashes. -/
theorem takeWhile_doubled (text : List Char) :
    (doubled text).takeWhile Char.isDigit = text.takeWhile Char.isDigit ∧
      ((doubled text).dropWhile Char.isDigit).head? = (text.dropWhile Char.isDigit).head? := by
  induction text with
  | nil => exact ⟨rfl, rfl⟩
  | cons c text ih =>
    by_cases hslash : c = '\\'
    · subst hslash
      exact ⟨rfl, rfl⟩
    · rw [doubled_cons hslash, List.takeWhile_cons, List.takeWhile_cons, List.dropWhile_cons,
        List.dropWhile_cons]
      split
      · exact ⟨congrArg (c :: ·) ih.1, ih.2⟩
      · exact ⟨rfl, rfl⟩

theorem head_doubled (text : List Char) : (doubled text).head? = text.head? := by
  cases text with
  | nil => rfl
  | cons c text =>
    by_cases hslash : c = '\\'
    · subst hslash
      rfl
    · rw [doubled_cons hslash]
      rfl

/-- A pattern that reads nothing from a backslash, and nothing of the backslashes behind, finds
the same. -/
theorem firstMatch_doubled {pattern : List Char → Option α}
    (hpattern : ∀ text, pattern (doubled text) = pattern text)
    (hslash : ∀ text, pattern ('\\' :: text) = none) (text : List Char) :
    firstMatch pattern (doubled text) = firstMatch pattern text := by
  induction text with
  | nil => rfl
  | cons c text ih =>
    by_cases hc : c = '\\'
    · subst hc
      show firstMatch pattern ('\\' :: '\\' :: doubled text) = _
      rw [firstMatch, hslash, firstMatch, hslash, firstMatch, hslash]
      exact ih
    · have hhere := hpattern (c :: text)
      rw [doubled_cons hc] at hhere ⊢
      rw [firstMatch, hhere, firstMatch, ih]

end Text

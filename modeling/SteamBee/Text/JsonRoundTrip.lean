import Mathlib.Data.List.TakeDrop
import SteamBee.Text.Json

/-! What the printer prints, the parser reads back. -/
namespace Text.Json
variable {fuel : ℕ} {rest : List Char}

/-! ## Strings -/

def read (c : Char) : Char ⊕ ℕ :=
  if shortEscape c = none ∧ c.toNat < 32 then .inr c.toNat else .inl c

theorem join_read (cs : List Char) : join none (cs.map read) = cs := by
  induction cs with
  | nil => rfl
  | cons c cs ih =>
    rw [List.map_cons, read]
    split_ifs with hcontrol
    · have hlow : isLow c.toNat = false := by
        simp [isLow]
        omega
      have hhigh : isHigh c.toNat = false := by
        simp [isHigh]
        omega
      simp [join, hlow, hhigh, lone, ih, Char.ofNat_toNat]
    · simp [join, lone, ih]

theorem codeUnit_hexSymbol {n : ℕ} (h : n < 32) :
    codeUnit '0' '0' (hexSymbol (n / 16)) (hexSymbol (n % 16)) = some n := by
  have hall : ∀ m : Fin 32,
      codeUnit '0' '0' (hexSymbol (m.val / 16)) (hexSymbol (m.val % 16)) = some m.val := by decide
  exact hall ⟨n, h⟩

theorem shortEscape_cases {c letter : Char} (h : shortEscape c = some letter) :
    letter ≠ 'u' ∧ unescape letter = some c := by
  unfold shortEscape at h
  have hc (n : ℕ) (hn : c.toNat = n) : Char.ofNat n = c := hn ▸ Char.ofNat_toNat c
  split_ifs at h with h₁ h₂ h₃ h₄ h₅ h₆ h₇
  all_goals obtain rfl := Option.some.inj h
  · exact ⟨by decide, by rw [h₁]; rfl⟩
  · exact ⟨by decide, by rw [h₂]; rfl⟩
  · exact ⟨by decide, by rw [← hc 8 h₃]; rfl⟩
  · exact ⟨by decide, by rw [← hc 9 h₄]; rfl⟩
  · exact ⟨by decide, by rw [← hc 10 h₅]; rfl⟩
  · exact ⟨by decide, by rw [← hc 12 h₆]; rfl⟩
  · exact ⟨by decide, by rw [← hc 13 h₇]; rfl⟩

theorem not_special {c : Char} (h : shortEscape c = none) : c ≠ '"' ∧ c ≠ '\\' := by
  constructor
  · rintro rfl
    cases h
  · rintro rfl
    cases h

theorem parseChars_escape (c : Char) (text : List Char) : parseChars (escape c ++ text) =
    (parseChars text).map fun r => (read c :: r.1, r.2) := by
  have hslash : ¬ '\\' = '"' := by decide
  unfold escape read
  cases hshort : shortEscape c with
  | some letter =>
    obtain ⟨hletter, hback⟩ := shortEscape_cases hshort
    simp only [List.cons_append, List.nil_append, reduceCtorEq, false_and, if_false]
    rw [parseChars.eq_def]
    simp only [hslash, hletter, if_false, if_true, hback, Option.bind_eq_bind, Option.bind_some]
    cases parseChars text <;> rfl
  | none =>
    obtain ⟨hquote, hback⟩ := not_special hshort
    by_cases hcontrol : c.toNat < 32
    · have hunit := codeUnit_hexSymbol hcontrol
      simp only [hcontrol, List.cons_append, List.nil_append, and_self, if_true]
      rw [parseChars.eq_def]
      simp only [hslash, if_false, if_true, hunit, Option.bind_eq_bind, Option.bind_some]
      cases parseChars text <;> rfl
    · simp only [hcontrol, List.cons_append, List.nil_append, and_false, if_false]
      rw [parseChars.eq_def]
      simp only [hquote, hback, hcontrol, if_false, Option.bind_eq_bind]
      cases parseChars text <;> rfl

theorem parseChars_quote (cs : List Char) (rest : List Char) :
    parseChars (cs.flatMap escape ++ '"' :: rest) = some (cs.map read, rest) := by
  induction cs with
  | nil =>
    rw [List.flatMap_nil, List.nil_append, parseChars.eq_def]
    rfl
  | cons c cs ih =>
    rw [List.flatMap_cons, List.append_assoc, parseChars_escape, ih]
    rfl

theorem parseString_quote (s : String) (rest : List Char) :
    parseString (s.toList.flatMap escape ++ '"' :: rest) = some (s, rest) := by
  simp [parseString, parseChars_quote, join_read]

/-! ## Numbers -/

def Delimited (rest : List Char) : Prop := ∀ c, rest.head? = some c → c = ',' ∨ c = ']' ∨ c = '}'

theorem delimited_cons {c : Char} (h : c = ',' ∨ c = ']' ∨ c = '}') (rest : List Char) :
    Delimited (c :: rest) := by
  intro d hd
  obtain rfl := Option.some.inj hd
  exact h

theorem span_digits {digits : List Char} (hdigits : ∀ c ∈ digits, c.isDigit = true)
    (hrest : Delimited rest) : (digits ++ rest).span Char.isDigit = (digits, rest) := by
  have hhead : rest.takeWhile Char.isDigit = [] ∧ rest.dropWhile Char.isDigit = rest := by
    cases rest with
    | nil => exact ⟨rfl, rfl⟩
    | cons c rest =>
      have hc : c.isDigit = false := by
        rcases hrest c rfl with rfl | rfl | rfl <;> decide
      simp [hc]
  rw [List.span_eq_takeWhile_dropWhile, List.takeWhile_append_of_pos hdigits,
    List.dropWhile_append_of_pos hdigits, hhead.1, hhead.2, List.append_nil]

theorem head_toDigits {n : ℕ} (h : 0 < n) : (Nat.toDigits 10 n).head? ≠ some '0' := by
  induction n using Nat.strong_induction_on with
  | _ n ih =>
    by_cases hlt : n < 10
    · have hall : ∀ m : Fin 10, 0 < m.val → (Nat.toDigits 10 m.val).head? ≠ some '0' := by decide
      exact hall ⟨n, hlt⟩ h
    · have hdiv := ih (n / 10) (by omega) (by omega)
      rw [Nat.toDigits_of_base_le (by decide) (Nat.not_lt.mp hlt)]
      cases hdigits : Nat.toDigits 10 (n / 10) with
      | nil => exact absurd hdigits Nat.toDigits_ne_nil
      | cons c cs =>
        rw [hdigits] at hdiv
        exact hdiv

theorem parseMagnitude_toDigits (n : ℕ) (hrest : Delimited rest) :
    parseMagnitude (Nat.toDigits 10 n ++ rest) = some ((n : ℚ), rest) := by
  have hdigits : ∀ c ∈ Nat.toDigits 10 n, c.isDigit = true :=
    fun c hc => Nat.isDigit_of_mem_toDigits (by decide) (by decide) hc
  have hzero : ¬ ((Nat.toDigits 10 n).head? = some '0' ∧ Nat.toDigits 10 n ≠ ['0']) := by
    rintro ⟨hhead, hne⟩
    by_cases hn : n = 0
    · exact hne (by rw [hn, Nat.toDigits_zero])
    · exact head_toDigits (Nat.pos_of_ne_zero hn) hhead
  have hfraction : parseFraction rest = some ([], rest) := by
    cases rest with
    | nil => rfl
    | cons c rest => rcases hrest c rfl with rfl | rfl | rfl <;> rfl
  have hexponent : parseExponent rest = some (0, rest) := by
    cases rest with
    | nil => rfl
    | cons c rest => rcases hrest c rfl with rfl | rfl | rfl <;> rfl
  have hwhole : ¬ (Nat.toDigits 10 n = [] ∨
      ((Nat.toDigits 10 n).head? = some '0' ∧ Nat.toDigits 10 n ≠ ['0'])) :=
    fun hor => hor.elim Nat.toDigits_ne_nil hzero
  unfold parseMagnitude
  rw [span_digits hdigits hrest]
  simp only [hwhole, if_false, hfraction, hexponent, Option.bind_eq_bind, Option.bind_some]
  simp

theorem head_digit {n : ℕ} {c : Char} {cs : List Char} (h : Nat.toDigits 10 n = c :: cs) :
    c.isDigit = true :=
  Nat.isDigit_of_mem_toDigits (by decide) (by decide) (h ▸ List.mem_cons_self)

theorem parseNumber_text {n : ℤ} (hn : Number.IsSafe n) (hrest : Delimited rest) :
    parseNumber ((Number.integer n).text ++ rest) = some (.integer n, rest) := by
  unfold Number.text
  dsimp only
  split_ifs with hneg
  · have habs : -|(n : ℚ)| = n := by
      rw [abs_of_neg (Int.cast_lt_zero.mpr hneg), neg_neg]
    simp [parseNumber, parseMagnitude_toDigits _ hrest, habs, Number.ofLiteral_intCast hn]
  · have habs : |(n : ℚ)| = n := abs_of_nonneg (by exact_mod_cast Int.not_lt.mp hneg)
    have hmagnitude := parseMagnitude_toDigits n.natAbs hrest
    cases hdigits : Nat.toDigits 10 n.natAbs with
    | nil => exact absurd hdigits Nat.toDigits_ne_nil
    | cons c cs =>
      have hc : c ≠ '-' := by
        rintro rfl
        exact absurd (head_digit hdigits) (by decide)
      rw [hdigits] at hmagnitude
      simp only [List.cons_append] at hmagnitude ⊢
      simp [parseNumber, hc, hmagnitude, habs, Number.ofLiteral_intCast hn]

/-! ## Values -/

mutual

/-- Every number is a safe integer. -/
def Printable : Json → Prop
  | .null | .bool _ | .str _ => True
  | .num (.integer n) => Number.IsSafe n
  | .num (.other _) => False
  | .arr items => PrintableItems items
  | .obj fields => PrintableFields fields
termination_by structural v => v

def PrintableItems : List Json → Prop
  | [] => True
  | v :: rest => Printable v ∧ PrintableItems rest
termination_by structural items => items

def PrintableFields : List (String × Json) → Prop
  | [] => True
  | (_, v) :: rest => Printable v ∧ PrintableFields rest
termination_by structural fields => fields

end

theorem printableItems_of_mem {items : List Json} (h : ∀ v ∈ items, Printable v) :
    PrintableItems items := by
  induction items with
  | nil => trivial
  | cons v items ih =>
    exact ⟨h v List.mem_cons_self, ih fun w hw => h w (List.mem_cons_of_mem v hw)⟩

theorem skipWhite_cons {c : Char} (h : isWhite c = false) (text : List Char) :
    skipWhite (c :: text) = c :: text := by
  simp [skipWhite, h]

theorem digit_starts {c : Char} (h : c.isDigit = true) : isWhite c = false ∧ c ≠ ']' := by
  constructor
  · by_contra hwhite
    simp only [isWhite, Bool.not_eq_false, Bool.or_eq_true, beq_iff_eq] at hwhite
    rcases hwhite with ((rfl | rfl) | rfl) | rfl <;> exact absurd h (by decide)
  · rintro rfl
    exact absurd h (by decide)

theorem head_text (n : ℤ) : ∃ c text, (Number.integer n).text = c :: text ∧
    (c.isDigit = true ∨ c = '-') := by
  unfold Number.text
  dsimp only
  split_ifs
  · exact ⟨'-', _, rfl, .inr rfl⟩
  · cases hdigits : Nat.toDigits 10 n.natAbs with
    | nil => exact absurd hdigits Nat.toDigits_ne_nil
    | cons c cs => exact ⟨c, cs, rfl, .inl (head_digit hdigits)⟩

/-- What a value starts with. -/
theorem head_stringify {v : Json} (hv : Printable v) :
    ∃ c text, stringify v = c :: text ∧ isWhite c = false ∧ c ≠ ']' := by
  cases v with
  | null => exact ⟨'n', _, rfl, by decide, by decide⟩
  | bool value =>
    cases value with
    | true => exact ⟨'t', _, rfl, by decide, by decide⟩
    | false => exact ⟨'f', _, rfl, by decide, by decide⟩
  | num n =>
    cases n with
    | integer n =>
      obtain ⟨c, text, htext, hc⟩ := head_text n
      refine ⟨c, text, htext, ?_⟩
      rcases hc with hdigit | rfl
      · exact digit_starts hdigit
      · exact ⟨by decide, by decide⟩
    | other literal => exact hv.elim
  | str s => exact ⟨'"', _, rfl, by decide, by decide⟩
  | arr items => exact ⟨'[', _, rfl, by decide, by decide⟩
  | obj fields => exact ⟨'{', _, rfl, by decide, by decide⟩

theorem parseValue_num {n : ℤ} (hn : Number.IsSafe n) (fuel : ℕ) (hrest : Delimited rest) :
    parseValue (fuel + 1) ((Number.integer n).text ++ rest) = some (.num (.integer n), rest) := by
  have hnumber := parseNumber_text hn hrest
  obtain ⟨c, text, htext, hc⟩ := head_text n
  have hother : isWhite c = false ∧ c ≠ 'n' ∧ c ≠ 't' ∧ c ≠ 'f' ∧ c ≠ '"' ∧ c ≠ '[' ∧ c ≠ '{' := by
    rcases hc with hdigit | rfl
    · refine ⟨(digit_starts hdigit).1, ?_, ?_, ?_, ?_, ?_, ?_⟩ <;>
      · rintro rfl
        exact absurd hdigit (by decide)
    · decide
  obtain ⟨hwhite, hn, ht, hf, hquote, hbracket, hbrace⟩ := hother
  rw [htext, List.cons_append] at hnumber ⊢
  rw [parseValue, skipWhite_cons hwhite]
  simp only [hn, ht, hf, hquote, hbracket, hbrace, if_false, hnumber]
  rfl

theorem head_items {v : Json} (hv : Printable v) (items : List Json) :
    ∃ c text, stringifyItems (v :: items) = c :: text ∧ isWhite c = false ∧ c ≠ ']' := by
  obtain ⟨c, text, htext, hc⟩ := head_stringify hv
  cases items with
  | nil => exact ⟨c, text ++ [']'], by rw [stringifyItems, htext, List.cons_append], hc⟩
  | cons w items =>
    exact ⟨c, text ++ ',' :: stringifyItems (w :: items),
      by rw [stringifyItems, htext, List.cons_append], hc⟩

/-- The bracket after a list of items has been read. -/
theorem parseValue_items {items : List Json} {text : List Char} {c : Char}
    (hwhite : isWhite c = false) (hclose : c ≠ ']')
    (h : parseItems fuel (c :: text) = some (items, rest)) :
    parseValue (fuel + 1) ('[' :: c :: text) = some (.arr items, rest) := by
  rw [parseValue, skipWhite_cons (by decide)]
  simp only [Char.reduceEq, if_false, if_true, skipWhite_cons hwhite]
  split
  next heq => exact absurd (List.cons.inj heq).1 hclose
  next => rw [h]; rfl

theorem parseValue_fields {fields : List (String × Json)} {text : List Char} {c : Char}
    (hwhite : isWhite c = false) (hclose : c ≠ '}')
    (h : parseFields fuel (c :: text) = some (fields, rest)) :
    parseValue (fuel + 1) ('{' :: c :: text) = some (.obj fields, rest) := by
  rw [parseValue, skipWhite_cons (by decide)]
  simp only [Char.reduceEq, if_false, if_true, skipWhite_cons hwhite]
  split
  next heq => exact absurd (List.cons.inj heq).1 hclose
  next => rw [h]; rfl

theorem parseItems_last {v : Json} {text : List Char}
    (h : parseValue fuel text = some (v, ']' :: rest)) :
    parseItems (fuel + 1) text = some ([v], rest) := by
  rw [parseItems, h]
  rfl

theorem parseItems_cons {v : Json} {items : List Json} {text text' : List Char}
    (h : parseValue fuel text = some (v, ',' :: text'))
    (h' : parseItems fuel text' = some (items, rest)) :
    parseItems (fuel + 1) text = some (v :: items, rest) := by
  rw [parseItems, h]
  show (parseItems fuel text').bind _ = _
  rw [h']
  rfl

theorem parseFields_last {v : Json} (name : String) {text : List Char}
    (h : parseValue fuel text = some (v, '}' :: rest)) :
    parseFields (fuel + 1) (quote name ++ ':' :: text) = some ([(name, v)], rest) := by
  have hname := parseString_quote name (':' :: text)
  rw [quote, List.cons_append, List.append_assoc, parseFields, skipWhite_cons (by decide)]
  show (parseString (_ ++ '"' :: ':' :: text)).bind _ = _
  rw [hname]
  show (parseValue fuel text).bind _ = _
  rw [h]
  rfl

theorem parseFields_cons {v : Json} {fields : List (String × Json)} (name : String)
    {text text' : List Char} (h : parseValue fuel text = some (v, ',' :: text'))
    (h' : parseFields fuel text' = some (fields, rest)) :
    parseFields (fuel + 1) (quote name ++ ':' :: text) = some ((name, v) :: fields, rest) := by
  have hname := parseString_quote name (':' :: text)
  rw [quote, List.cons_append, List.append_assoc, parseFields, skipWhite_cons (by decide)]
  show (parseString (_ ++ '"' :: ':' :: text)).bind _ = _
  rw [hname]
  show (parseValue fuel text).bind _ = _
  rw [h]
  show (parseFields fuel text').bind _ = _
  rw [h']
  rfl

mutual

/-- The round trip of a value. Every call of the parser is on a shorter text, so that the
length of the text is fuel enough. -/
theorem parseValue_stringify (v : Json) (fuel : ℕ) (rest : List Char) (hv : Printable v)
    (hfuel : (stringify v).length ≤ fuel) (hrest : Delimited rest) :
    parseValue fuel (stringify v ++ rest) = some (v, rest) := by
  obtain ⟨fuel, rfl⟩ : ∃ k, fuel = k + 1 := by
    obtain ⟨c, text, htext, -⟩ := head_stringify hv
    rw [htext, List.length_cons] at hfuel
    exact ⟨fuel - 1, by omega⟩
  match v with
  | .null => rfl
  | .bool true => rfl
  | .bool false => rfl
  | .num (.integer n) => exact parseValue_num hv fuel hrest
  | .num (.other literal) => exact hv.elim
  | .str s =>
    have hstring := parseString_quote s rest
    rw [stringify, quote, List.cons_append, List.append_assoc, parseValue,
      skipWhite_cons (by decide)]
    simp [hstring]
  | .arr [] => rfl
  | .arr (v :: items) =>
    obtain ⟨hhead, htail⟩ : Printable v ∧ PrintableItems items := hv
    have hitems := parseItems_stringify v items fuel rest hhead htail
      (by simpa [stringify] using hfuel)
    obtain ⟨c, text, htext, hwhite, hclose⟩ := head_items hhead items
    rw [htext, List.cons_append] at hitems
    rw [stringify, htext]
    exact parseValue_items hwhite hclose hitems
  | .obj [] => rfl
  | .obj ((name, v) :: fields) =>
    obtain ⟨hhead, htail⟩ : Printable v ∧ PrintableFields fields := hv
    have hfields := parseFields_stringify name v fields fuel rest hhead htail
      (by simpa [stringify] using hfuel)
    obtain ⟨text, htext⟩ : ∃ text, stringifyFields ((name, v) :: fields) = '"' :: text := by
      cases fields with
      | nil => exact ⟨_, rfl⟩
      | cons field fields => exact ⟨_, rfl⟩
    rw [htext, List.cons_append] at hfields
    rw [stringify, htext]
    exact parseValue_fields (by decide) (by decide) hfields
termination_by fuel

theorem parseItems_stringify (v : Json) (items : List Json) (fuel : ℕ) (rest : List Char)
    (hv : Printable v) (hitems : PrintableItems items)
    (hfuel : (stringifyItems (v :: items)).length ≤ fuel) :
    parseItems fuel (stringifyItems (v :: items) ++ rest) = some (v :: items, rest) := by
  obtain ⟨fuel, rfl⟩ : ∃ k, fuel = k + 1 := by
    obtain ⟨c, text, htext, -⟩ := head_items hv items
    rw [htext, List.length_cons] at hfuel
    exact ⟨fuel - 1, by omega⟩
  match items with
  | [] =>
    rw [stringifyItems, List.length_append, List.length_singleton] at hfuel
    rw [stringifyItems, List.append_assoc]
    exact parseItems_last (parseValue_stringify v fuel (']' :: rest) hv (by omega)
      (delimited_cons (by simp) rest))
  | w :: items =>
    obtain ⟨hw, hitems⟩ : Printable w ∧ PrintableItems items := hitems
    rw [stringifyItems, List.length_append, List.length_cons] at hfuel
    rw [stringifyItems, List.append_assoc]
    exact parseItems_cons
      (parseValue_stringify v fuel (',' :: (stringifyItems (w :: items) ++ rest)) hv (by omega)
        (delimited_cons (by simp) _))
      (parseItems_stringify w items fuel rest hw hitems (by omega))
termination_by fuel

theorem parseFields_stringify (name : String) (v : Json) (fields : List (String × Json))
    (fuel : ℕ) (rest : List Char) (hv : Printable v) (hfields : PrintableFields fields)
    (hfuel : (stringifyFields ((name, v) :: fields)).length ≤ fuel) :
    parseFields fuel (stringifyFields ((name, v) :: fields) ++ rest) =
      some ((name, v) :: fields, rest) := by
  match fields with
  | [] =>
    rw [stringifyFields, List.length_append, List.length_cons, List.length_append] at hfuel
    obtain ⟨fuel, rfl⟩ : ∃ k, fuel = k + 1 := ⟨fuel - 1, by omega⟩
    rw [stringifyFields, List.append_assoc, List.cons_append, List.append_assoc]
    exact parseFields_last name (parseValue_stringify v fuel ('}' :: rest) hv (by omega)
      (delimited_cons (by simp) rest))
  | (name', w) :: fields =>
    obtain ⟨hw, hfields⟩ : Printable w ∧ PrintableFields fields := hfields
    rw [stringifyFields, List.length_append, List.length_cons, List.length_append,
      List.length_cons] at hfuel
    obtain ⟨fuel, rfl⟩ : ∃ k, fuel = k + 1 := ⟨fuel - 1, by omega⟩
    rw [stringifyFields, List.append_assoc, List.cons_append, List.append_assoc]
    exact parseFields_cons name
      (parseValue_stringify v fuel (',' :: (stringifyFields ((name', w) :: fields) ++ rest)) hv
        (by omega) (delimited_cons (by simp) _))
      (parseFields_stringify name' w fields fuel rest hw hfields (by omega))
termination_by fuel

end

/-- The parser reads back what the printer prints. -/
theorem parse_stringify {v : Json} (hv : Printable v) : parse (stringify v) = some v := by
  have hvalue := parseValue_stringify v ((stringify v).length + 1) [] hv (Nat.le_succ _)
    (fun c hc => by cases hc)
  rw [List.append_nil] at hvalue
  rw [parse, hvalue]
  rfl

end Text.Json

import SteamBee.Text.Json
import SteamBee.Text.Search
import Mathlib.Data.List.DropRight
import Mathlib.Data.List.TakeWhile
import Mathlib.Tactic.Common

/-! Finding the end of an object in a text by counting braces outside strings, and why this
finds the end of every JSON object. -/
namespace Text

/-! ## The scanner -/

structure Scan where
  depth : ℤ
  quoted : Bool
  escaped : Bool
  deriving DecidableEq, Repr

namespace Scan

inductive Next where
  | goes (scan : Scan)
  | closes
  | strays
  deriving DecidableEq, Repr

/-- A brace that closes below the outermost one is counted, and does not stray. -/
def next (s : Scan) (char : Char) : Next :=
  if s.quoted then
    if s.escaped then .goes { s with escaped := false }
    else if char = '\\' then .goes { s with escaped := true }
    else if char = '"' then .goes { s with quoted := false }
    else .goes s
  else if char = '"' then .goes { s with quoted := true }
  else if char = '{' then .goes { s with depth := s.depth + 1 }
  else
    let depth := if char = '}' then s.depth - 1 else s.depth
    if char = '}' ∧ depth = 0 then .closes
    else if depth = 0 ∧ isSpace char = false then .strays
    else .goes { s with depth := depth }

/-- How many characters the object takes, its closing brace included. -/
def closing (s : Scan) : List Char → Option ℕ
  | [] => none
  | char :: text =>
    match s.next char with
    | .goes s => (s.closing text).map (· + 1)
    | .closes => some 1
    | .strays => none

/-- Outside strings, within `n` braces. -/
def inside (n : ℕ) : Scan := ⟨n, false, false⟩

def within (n : ℕ) : Scan := ⟨n, true, false⟩

/-- The scanner reads over the text, which leaves it in another state. -/
def Crosses (s : Scan) (text : List Char) (t : Scan) : Prop :=
  ∀ rest, s.closing (text ++ rest) = (t.closing rest).map (· + text.length)

section Crosses
variable {s t u : Scan} {text text' rest : List Char} {c : Char} {n : ℕ}

theorem Crosses.nil (s : Scan) : Crosses s [] s := by
  intro rest
  simp

theorem Crosses.of_next (h : s.next c = .goes t) : Crosses s [c] t := by
  intro rest
  rw [List.singleton_append, closing, h]
  rfl

theorem Crosses.append (h : Crosses s text t) (h' : Crosses t text' u) :
    Crosses s (text ++ text') u := by
  intro rest
  rw [List.append_assoc, h, h', Option.map_map, List.length_append]
  congr 1
  funext k
  simp only [Function.comp_apply]
  omega

theorem Crosses.cons (h : s.next c = .goes t) (h' : Crosses t text u) :
    Crosses s (c :: text) u := (Crosses.of_next h).append h'

/-! ## Parts of a value -/

/-- A character that is nothing to the scanner outside strings. -/
def IsPlain (c : Char) : Prop := c ≠ '"' ∧ c ≠ '{' ∧ c ≠ '}'

instance (c : Char) : Decidable (IsPlain c) := by
  unfold IsPlain
  infer_instance

theorem next_inside (hn : 1 ≤ n) (hc : IsPlain c) : (inside n).next c = .goes (inside n) := by
  obtain ⟨hquote, hopen, hclose⟩ := hc
  have hdepth : n ≠ 0 := by omega
  simp [next, inside, hquote, hopen, hclose, hdepth]

theorem crosses_plain (hn : 1 ≤ n) (h : ∀ c ∈ text, IsPlain c) :
    Crosses (inside n) text (inside n) := by
  induction text with
  | nil => exact .nil _
  | cons c text ih =>
    apply Crosses.cons (next_inside hn (h c List.mem_cons_self))
    exact ih fun d hd => h d (List.mem_cons_of_mem c hd)

theorem next_open (n : ℕ) : (inside n).next '{' = .goes (inside (n + 1)) := by
  simp [next, inside]

theorem next_close (hn : 1 ≤ n) : (inside (n + 1)).next '}' = .goes (inside n) := by
  have hdepth : n ≠ 0 := by omega
  simp [next, inside, hdepth]

theorem next_quote (n : ℕ) : (inside n).next '"' = .goes (within n) := by
  simp [next, inside, within]

theorem next_unquote (n : ℕ) : (within n).next '"' = .goes (inside n) := by
  simp [next, inside, within]

theorem next_within (hquote : c ≠ '"') (hescape : c ≠ '\\') :
    (within n).next c = .goes (within n) := by
  simp [next, within, hquote, hescape]

theorem crosses_escape (n : ℕ) (letter : Char) :
    Crosses (within n) ['\\', letter] (within n) := by
  refine .cons (t := ⟨n, true, true⟩) ?_ (.of_next ?_)
  · simp [next, within]
  · simp [next, within]

/-! ## Values -/

theorem hexValue_plain (h : (Json.hexValue c).isSome) : c ≠ '"' ∧ c ≠ '\\' := by
  constructor
  · rintro rfl
    exact absurd h (by decide)
  · rintro rfl
    exact absurd h (by decide)

theorem codeUnit_plain {a b c d : Char} {unit : ℕ} (h : Json.codeUnit a b c d = some unit) :
    ∀ letter ∈ [a, b, c, d], letter ≠ '"' ∧ letter ≠ '\\' := by
  unfold Json.codeUnit at h
  simp only [Option.bind_eq_bind, Option.bind_eq_some_iff] at h
  obtain ⟨_, ha, _, hb, _, hc, _, hd, -⟩ := h
  intro letter hletter
  apply hexValue_plain
  simp only [List.mem_cons, List.not_mem_nil, or_false] at hletter
  rcases hletter with rfl | rfl | rfl | rfl
  · rw [ha, Option.isSome_some]
  · rw [hb, Option.isSome_some]
  · rw [hc, Option.isSome_some]
  · rw [hd, Option.isSome_some]

theorem crosses_within (h : ∀ c ∈ text, c ≠ '"' ∧ c ≠ '\\') :
    Crosses (within n) text (within n) := by
  induction text with
  | nil => exact .nil _
  | cons c text ih =>
    obtain ⟨hquote, hescape⟩ := h c List.mem_cons_self
    apply Crosses.cons (next_within hquote hescape)
    exact ih fun d hd => h d (List.mem_cons_of_mem c hd)

/-- The text that a reader has taken, and what the scanner makes of it. -/
def Takes (s : Scan) (text rest : List Char) (t : Scan) : Prop :=
  ∃ taken, text = taken ++ rest ∧ Crosses s taken t

theorem Takes.append (h : Takes s text text' t) (h' : Takes t text' rest u) :
    Takes s text rest u := by
  obtain ⟨taken, rfl, htaken⟩ := h
  obtain ⟨taken', rfl, htaken'⟩ := h'
  exact ⟨taken ++ taken', (List.append_assoc _ _ _).symm, htaken.append htaken'⟩

theorem Takes.cons (h : s.next c = .goes t) (h' : Takes t text rest u) :
    Takes s (c :: text) rest u := by
  obtain ⟨taken, rfl, htaken⟩ := h'
  exact ⟨c :: taken, rfl, .cons h htaken⟩

/-- The characters of a string and its closing quote. By induction on the text, of which an
escape takes two or six characters. -/
theorem takes_parseChars {items : List (Char ⊕ ℕ)} (n : ℕ)
    (h : Json.parseChars text = some (items, rest)) :
    Takes (within n) text rest (inside n) := by
  induction text using Json.parseChars.induct generalizing items rest with
  | case1 => cases h
  | case2 text =>
    rw [Json.parseChars.eq_def] at h
    cases h
    exact ⟨['"'], rfl, .of_next (next_unquote n)⟩
  | case3 => cases h
  | case4 a b c d text _ ih =>
    rw [Json.parseChars.eq_def] at h
    simp only [Char.reduceEq, if_false, if_true, Option.bind_eq_bind,
      Option.bind_eq_some_iff] at h
    obtain ⟨unit, hunit, ⟨items, rest⟩, hchars, heq⟩ := h
    cases heq
    have hdigits : Crosses (within n) [a, b, c, d] (within n) :=
      crosses_within (codeUnit_plain hunit)
    exact Takes.append ⟨['\\', 'u'] ++ [a, b, c, d], rfl, (crosses_escape n 'u').append hdigits⟩
      (ih hchars)
  | case5 text hshort =>
    rw [Json.parseChars.eq_def] at h
    simp only [Char.reduceEq, if_false, if_true] at h
    cases h
  | case6 letter text hletter _ ih =>
    rw [Json.parseChars.eq_def] at h
    simp only [Char.reduceEq, if_false, if_true, if_neg hletter, Option.bind_eq_bind,
      Option.bind_eq_some_iff] at h
    obtain ⟨_, -, ⟨items, rest⟩, hchars, heq⟩ := h
    cases heq
    exact Takes.append ⟨['\\', letter], rfl, crosses_escape n letter⟩ (ih hchars)
  | case7 c text hquote hescape hcontrol =>
    rw [Json.parseChars.eq_def] at h
    simp only [if_neg hquote, if_neg hescape, if_pos hcontrol] at h
    cases h
  | case8 c text hquote hescape hcontrol ih =>
    rw [Json.parseChars.eq_def] at h
    simp only [if_neg hquote, if_neg hescape, if_neg hcontrol, Option.bind_eq_bind,
      Option.bind_eq_some_iff] at h
    obtain ⟨⟨items, rest⟩, hchars, heq⟩ := h
    cases heq
    exact Takes.cons (next_within hquote hescape) (ih hchars)

theorem takes_parseString {value : String} (n : ℕ)
    (h : Json.parseString text = some (value, rest)) :
    Takes (within n) text rest (inside n) := by
  unfold Json.parseString at h
  simp only [Option.bind_eq_bind, Option.bind_eq_some_iff] at h
  obtain ⟨⟨items, rest⟩, hchars, heq⟩ := h
  cases heq
  exact takes_parseChars n hchars

/-- A text without anything that the scanner minds. -/
def PlainTo (text rest : List Char) : Prop := ∃ taken, text = taken ++ rest ∧ ∀ c ∈ taken, IsPlain c

theorem PlainTo.takes (h : PlainTo text rest) (hn : 1 ≤ n) :
    Takes (inside n) text rest (inside n) := by
  obtain ⟨taken, rfl, hplain⟩ := h
  exact ⟨taken, rfl, crosses_plain hn hplain⟩

theorem PlainTo.refl (text : List Char) : PlainTo text text := ⟨[], rfl, fun _ h => (by cases h)⟩

theorem PlainTo.cons (hc : IsPlain c) (h : PlainTo text rest) : PlainTo (c :: text) rest := by
  obtain ⟨taken, rfl, htaken⟩ := h
  refine ⟨c :: taken, rfl, fun d hd => ?_⟩
  rcases List.mem_cons.mp hd with rfl | hd
  · exact hc
  · exact htaken d hd

theorem PlainTo.trans (h : PlainTo text text') (h' : PlainTo text' rest) : PlainTo text rest := by
  obtain ⟨taken, rfl, htaken⟩ := h
  obtain ⟨taken', rfl, htaken'⟩ := h'
  refine ⟨taken ++ taken', (List.append_assoc _ _ _).symm, fun d hd => ?_⟩
  rcases List.mem_append.mp hd with hd | hd
  · exact htaken d hd
  · exact htaken' d hd

theorem plainTo_dropWhile {p : Char → Bool} (hp : ∀ c, p c = true → IsPlain c)
    (text : List Char) : PlainTo text (text.dropWhile p) := by
  refine ⟨text.takeWhile p, List.takeWhile_append_dropWhile.symm, fun c hc => hp c ?_⟩
  exact List.all_eq_true.mp (List.all_takeWhile (l := text)) c hc

theorem isPlain_of_isDigit (h : c.isDigit = true) : IsPlain c := by
  refine ⟨?_, ?_, ?_⟩
  all_goals
    rintro rfl
    exact absurd h (by decide)

theorem isPlain_of_isWhite (h : Json.isWhite c = true) : IsPlain c := by
  refine ⟨?_, ?_, ?_⟩
  all_goals
    rintro rfl
    exact absurd h (by decide)

theorem plainTo_parseFraction {digits : List Char}
    (h : Json.parseFraction text = some (digits, rest)) : PlainTo text rest := by
  unfold Json.parseFraction at h
  split at h
  · next text =>
    rw [List.span_eq_takeWhile_dropWhile] at h
    dsimp only at h
    split_ifs at h
    cases h
    exact .cons (by decide) (plainTo_dropWhile (fun _ => isPlain_of_isDigit) text)
  · cases h
    exact .refl _

theorem plainTo_digits {e exponent : ℤ}
    (h : (if text.takeWhile Char.isDigit = [] then none
      else some (e, text.dropWhile Char.isDigit)) = some (exponent, rest)) : PlainTo text rest := by
  split_ifs at h
  cases h
  exact plainTo_dropWhile (fun _ => isPlain_of_isDigit) text

theorem plainTo_parseExponent {exponent : ℤ}
    (h : Json.parseExponent text = some (exponent, rest)) : PlainTo text rest := by
  cases text with
  | nil =>
    cases h
    exact .refl _
  | cons c text =>
    rw [Json.parseExponent.eq_def] at h
    dsimp only at h
    by_cases hc : c = 'e' ∨ c = 'E'
    · rw [if_pos hc] at h
      refine .cons (by rcases hc with rfl | rfl <;> decide) ?_
      split at h
      all_goals
        rw [List.span_eq_takeWhile_dropWhile] at h
      · exact .cons (by decide) (plainTo_digits h)
      · exact .cons (by decide) (plainTo_digits h)
      · exact plainTo_digits h
    · rw [if_neg hc] at h
      cases h
      exact .refl _

theorem plainTo_parseMagnitude {q : ℚ} (h : Json.parseMagnitude text = some (q, rest)) :
    PlainTo text rest := by
  unfold Json.parseMagnitude at h
  rw [List.span_eq_takeWhile_dropWhile] at h
  dsimp only at h
  split_ifs at h
  simp only [Option.bind_eq_bind, Option.bind_eq_some_iff] at h
  obtain ⟨⟨fraction, text'⟩, hfraction, ⟨exponent, text''⟩, hexponent, heq⟩ := h
  cases heq
  exact (plainTo_dropWhile (fun _ => isPlain_of_isDigit) text).trans
    ((plainTo_parseFraction hfraction).trans (plainTo_parseExponent hexponent))

theorem plainTo_parseNumber {number : Number} (h : Json.parseNumber text = some (number, rest)) :
    PlainTo text rest := by
  unfold Json.parseNumber at h
  split at h
  · next text =>
    simp only [Option.bind_eq_bind, Option.bind_eq_some_iff, Option.map_eq_some_iff] at h
    obtain ⟨-, ⟨⟨q, rest⟩, hmagnitude, rfl⟩, heq⟩ := h
    cases heq
    exact .cons (by decide) (plainTo_parseMagnitude hmagnitude)
  · simp only [Option.bind_eq_bind, Option.bind_eq_some_iff] at h
    obtain ⟨⟨q, rest⟩, hmagnitude, heq⟩ := h
    cases heq
    exact plainTo_parseMagnitude hmagnitude

theorem plainTo_parseWord {word : List Char} {v w : Json}
    (hword : word.all (fun c => decide (IsPlain c)) = true)
    (h : Json.parseWord word v text = some (w, rest)) : PlainTo text rest := by
  unfold Json.parseWord at h
  split_ifs at h with hprefix
  obtain ⟨rest', rfl⟩ := hprefix
  cases h
  exact ⟨word, by rw [List.drop_left], fun c hc =>
    of_decide_eq_true (List.all_eq_true.mp hword c hc)⟩

theorem plainTo_skipWhite (text : List Char) : PlainTo text (Json.skipWhite text) :=
  plainTo_dropWhile (fun _ => isPlain_of_isWhite) text

/-- What the readers of JSON with so much fuel take, of an object up to its closing brace. -/
structure TakesValues (fuel : ℕ) : Prop where
  value : ∀ {text v rest n}, 1 ≤ n → Json.parseValue fuel text = some (v, rest) →
    Takes (inside n) text rest (inside n)
  items : ∀ {text items rest n}, 1 ≤ n → Json.parseItems fuel text = some (items, rest) →
    Takes (inside n) text rest (inside n)
  fields : ∀ {text fields rest n}, 1 ≤ n → Json.parseFields fuel text = some (fields, rest) →
    Takes (inside n) text ('}' :: rest) (inside n)

theorem parseValue_skipWhite (fuel : ℕ) (text : List Char) :
    Json.parseValue (fuel + 1) (Json.skipWhite text) = Json.parseValue (fuel + 1) text := by
  have hskip : Json.skipWhite (Json.skipWhite text) = Json.skipWhite text :=
    List.dropWhile_idempotent Json.isWhite text
  rw [Json.parseValue, Json.parseValue, hskip]

/-- Behind the opening brace of an object. -/
theorem TakesValues.object {fuel : ℕ} {v : Json} (h : TakesValues fuel) (hn : 1 ≤ n)
    (hparse : Json.parseValue (fuel + 1) ('{' :: text) = some (v, rest)) :
    Takes (inside n) text ('}' :: rest) (inside n) := by
  rw [Json.parseValue.eq_def] at hparse
  have hskip : Json.skipWhite ('{' :: text) = '{' :: text := rfl
  simp only [hskip, Char.reduceEq, if_false, if_true] at hparse
  refine (plainTo_skipWhite text).takes hn |>.append ?_
  split at hparse
  · next rest' heq =>
    cases hparse
    rw [heq]
    exact (PlainTo.refl _).takes hn
  · obtain ⟨⟨fields, rest⟩, hfields, heq⟩ := Option.map_eq_some_iff.mp hparse
    cases heq
    exact h.fields hn hfields

theorem TakesValues.succ {fuel : ℕ} (h : TakesValues fuel) : TakesValues (fuel + 1) := by
  constructor
  case value =>
    intro text v rest n hn hparse
    have hwhole := hparse
    rw [← parseValue_skipWhite] at hwhole
    rw [Json.parseValue.eq_def] at hparse
    dsimp only at hparse
    apply (plainTo_skipWhite text).takes hn |>.append
    cases htext : Json.skipWhite text with
    | nil =>
      rw [htext] at hparse
      cases hparse
    | cons c text =>
      rw [htext] at hparse hwhole
      dsimp only at hparse
      split_ifs at hparse with hnull htrue hfalse hquote harr hobj
      · exact .cons (next_inside hn (by subst hnull; decide))
          ((plainTo_parseWord (by decide) hparse).takes hn)
      · exact .cons (next_inside hn (by subst htrue; decide))
          ((plainTo_parseWord (by decide) hparse).takes hn)
      · exact .cons (next_inside hn (by subst hfalse; decide))
          ((plainTo_parseWord (by decide) hparse).takes hn)
      · obtain ⟨⟨value, rest⟩, hstring, heq⟩ := Option.map_eq_some_iff.mp hparse
        cases heq
        exact .cons (hquote ▸ next_quote n) (takes_parseString n hstring)
      · subst harr
        refine .cons (next_inside hn (by decide)) ((plainTo_skipWhite text).takes hn |>.append ?_)
        split at hparse
        · next rest' heq =>
          cases hparse
          rw [heq]
          exact .cons (next_inside hn (by decide)) ((PlainTo.refl _).takes hn)
        · obtain ⟨⟨items, rest⟩, hitems, heq⟩ := Option.map_eq_some_iff.mp hparse
          cases heq
          exact h.items hn hitems
      · subst hobj
        refine .cons (next_open n) ((h.object (by omega) hwhole).append ?_)
        exact .cons (next_close hn) ((PlainTo.refl _).takes hn)
      · obtain ⟨⟨number, rest⟩, hnumber, heq⟩ := Option.map_eq_some_iff.mp hparse
        cases heq
        exact (plainTo_parseNumber hnumber).takes hn
  case items =>
    intro text items rest n hn hparse
    rw [Json.parseItems.eq_def] at hparse
    simp only [Option.bind_eq_bind, Option.bind_eq_some_iff] at hparse
    obtain ⟨⟨v, text'⟩, hvalue, hparse⟩ := hparse
    refine (h.value hn hvalue).append ((plainTo_skipWhite text').takes hn |>.append ?_)
    dsimp only at hparse
    split at hparse
    · next text'' heq =>
      simp only [Option.bind_eq_some_iff] at hparse
      obtain ⟨⟨items, rest⟩, hitems, heq'⟩ := hparse
      cases heq'
      rw [heq]
      exact .cons (next_inside hn (by decide)) (h.items hn hitems)
    · next text'' heq =>
      cases hparse
      rw [heq]
      exact .cons (next_inside hn (by decide)) ((PlainTo.refl _).takes hn)
    · cases hparse
  case fields =>
    intro text fields rest n hn hparse
    rw [Json.parseFields.eq_def] at hparse
    dsimp only at hparse
    apply (plainTo_skipWhite text).takes hn |>.append
    split at hparse
    · next text' heq =>
      simp only [Option.bind_eq_bind, Option.bind_eq_some_iff] at hparse
      obtain ⟨⟨name, text''⟩, hname, hparse⟩ := hparse
      rw [heq]
      refine .cons (next_quote n) ((takes_parseString n hname).append ?_)
      refine (plainTo_skipWhite text'').takes hn |>.append ?_
      dsimp only at hparse
      split at hparse
      · next text' heq =>
        simp only [Option.bind_eq_some_iff] at hparse
        obtain ⟨⟨v, text''⟩, hvalue, hparse⟩ := hparse
        rw [heq]
        refine .cons (next_inside hn (by decide)) ((h.value hn hvalue).append ?_)
        refine (plainTo_skipWhite text'').takes hn |>.append ?_
        dsimp only at hparse
        split at hparse
        · next text' heq =>
          simp only [Option.bind_eq_some_iff] at hparse
          obtain ⟨⟨fields, rest⟩, hfields, heq'⟩ := hparse
          cases heq'
          rw [heq]
          exact .cons (next_inside hn (by decide)) (h.fields hn hfields)
        · next text' heq =>
          cases hparse
          rw [heq]
          exact (PlainTo.refl _).takes hn
        · cases hparse
      · cases hparse
    · cases hparse

theorem takesValues (fuel : ℕ) : TakesValues fuel := by
  induction fuel with
  | zero =>
    constructor
    case value => exact fun _ h => (by cases h)
    case items => exact fun _ h => (by cases h)
    case fields => exact fun _ h => (by cases h)
  | succ fuel ih => exact ih.succ

/-! ## Objects -/

structure IsObject (text : List Char) (fields : List (String × Json)) : Prop where
  parse : Json.parse text = some (.obj fields)
  opens : text.head? = some '{'
  closes : text.getLast? = some '}'

/-- The end of an object is found whatever follows. -/
theorem IsObject.closing_append {fields : List (String × Json)} (h : IsObject text fields)
    (suffix : List Char) : closing (inside 0) (text ++ suffix) = some text.length := by
  obtain ⟨body, rfl⟩ : ∃ body, text = '{' :: body := by
    cases text with
    | nil => exact absurd h.opens nofun
    | cons c body => exact ⟨body, by rw [Option.some.inj h.opens]⟩
  have hparse := h.parse
  unfold Json.parse at hparse
  simp only [Option.bind_eq_bind, Option.bind_eq_some_iff] at hparse
  obtain ⟨⟨v, rest⟩, hvalue, hparse⟩ := hparse
  dsimp only at hparse
  split_ifs at hparse with hwhite
  obtain ⟨taken, htaken, hcrosses⟩ := (takesValues _).object le_rfl hvalue
  -- nothing but white space could follow the value, and the text ends with a brace
  have hrest : rest = [] := by
    by_contra hrest
    have hlast := h.closes
    rw [htaken, List.append_cons, ← List.cons_append,
      List.getLast?_append_of_ne_nil _ hrest] at hlast
    have hall := List.dropWhile_eq_nil_iff.mp hwhite '}' (List.mem_of_getLast? hlast)
    exact absurd hall (by decide)
  subst hrest
  rw [htaken, List.cons_append, closing, next_open 0]
  dsimp only
  rw [List.append_assoc, hcrosses, List.singleton_append, closing]
  simp [next, inside, Nat.add_comm]

end Crosses

end Scan
end Text

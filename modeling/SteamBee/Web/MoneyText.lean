import Mathlib.Algebra.Order.Field.Basic
import Mathlib.Tactic.FieldSimp
import Mathlib.Tactic.Ring
import SteamBee.Text.Decimal
import SteamBee.Text.Number

/-! Money as text in the web client: an amount in minor units and the major units that a user
reads and types. -/
namespace SteamBee.Web
open Text

/-- `[.,]`. -/
def isSeparator (c : Char) : Bool := c == '.' || c == ','

/-- `(?:(\d+)(?:[.,](\d*))?|[.,](\d+))$`: the digits before a separator and behind it. -/
def matchMagnitude (text : List Char) : Option (List Char × List Char) :=
  let whole := text.takeWhile Char.isDigit
  match text.dropWhile Char.isDigit with
  | [] => if whole.isEmpty then none else some (whole, [])
  | separator :: fraction =>
    if isSeparator separator && fraction.all Char.isDigit && !(whole.isEmpty && fraction.isEmpty)
    then some (whole, fraction) else none

def matchPrice : List Char → Option (Bool × List Char × List Char)
  | '-' :: text => (matchMagnitude text).map fun (whole, fraction) => (true, whole, fraction)
  | text => (matchMagnitude text).map fun (whole, fraction) => (false, whole, fraction)

/-- The digits of the amount in minor units, without leading zeros. -/
def minorDigits (whole fraction : List Char) (unit : ℕ) : List Char :=
  ((if whole.isEmpty then ['0'] else whole) ++ fraction.rightpad unit '0').dropWhile (· == '0')

/-- `Number.MAX_SAFE_INTEGER`. -/
def maxSafeInteger : ℕ := 2 ^ 53 - 1

def signed (negative : Bool) (magnitude : ℕ) : ℤ := if negative then -magnitude else magnitude

def parseMajorToMinor (value : String) (minorUnit : ℤ) (allowNegative : Bool) : Option ℤ :=
  if minorUnit < 0 ∨ 20 < minorUnit then none
  else
    match matchPrice (trim value.toList) with
    | none => none
    | some (negative, whole, fraction) =>
      if negative && !allowNegative then none
      else if minorUnit.toNat < fraction.length then none
      else
        let digits := minorDigits whole fraction minorUnit.toNat
        if 16 < digits.length then none
        else
          let magnitude := Nat.ofDigitChars 10 digits 0
          if maxSafeInteger < magnitude then none else some (signed negative magnitude)

/-- The digits of an amount, at least one of them before the separator. -/
def majorDigits (amount : ℤ) (unit : ℕ) : List Char :=
  (Nat.toDigits 10 amount.natAbs).leftpad (unit + 1) '0'

/-- Fixed, exact decimal text suitable for a price input. -/
def formatMinorToMajor (amount minorUnit : ℤ) : Option String :=
  if ¬ Number.IsSafe amount ∨ minorUnit < 0 ∨ 20 < minorUnit then none
  else
    let unit := minorUnit.toNat
    let digits := majorDigits amount unit
    let decimal :=
      if unit = 0 then digits
      else digits.take (digits.length - unit) ++ '.' :: digits.drop (digits.length - unit)
    some (String.ofList (if amount < 0 then '-' :: decimal else decimal))

/-! ## Written prices -/

structure Written where
  before : List Char
  negative : Bool
  whole : List Char
  separator : Option Char
  fraction : List Char
  after : List Char

namespace Written

def magnitude (written : Written) : List Char :=
  written.whole ++ written.separator.toList ++ written.fraction

def text (written : Written) : List Char :=
  written.before ++ ((if written.negative then ['-'] else []) ++ written.magnitude) ++ written.after

def value (written : Written) : ℚ :=
  (if written.negative then -1 else 1) * ((Nat.ofDigitChars 10 written.whole 0 : ℚ) +
    Nat.ofDigitChars 10 written.fraction 0 / 10 ^ written.fraction.length)

/-- White space around an optional minus and digits with at most one separator. -/
structure Proper (written : Written) : Prop where
  before : ∀ c ∈ written.before, isSpace c = true
  whole : ∀ c ∈ written.whole, c.isDigit = true
  separator : ∀ c ∈ written.separator, isSeparator c = true
  fraction : ∀ c ∈ written.fraction, c.isDigit = true
  unseparated : written.separator = none → written.fraction = []
  digits : written.whole ≠ [] ∨ written.fraction ≠ []
  after : ∀ c ∈ written.after, isSpace c = true

end Written

variable {text whole fraction : List Char} {written : Written} {negative allowNegative : Bool}
  {unit magnitude : ℕ} {minorUnit amount : ℤ} {c : Char}

theorem not_isDigit_of_isSeparator (h : isSeparator c = true) : c.isDigit = false := by
  simp only [isSeparator, Bool.or_eq_true, beq_iff_eq] at h
  rcases h with rfl | rfl <;> rfl

theorem not_isSpace_of_isSeparator (h : isSeparator c = true) : isSpace c = false := by
  simp only [isSeparator, Bool.or_eq_true, beq_iff_eq] at h
  rcases h with rfl | rfl <;> rfl

/-- The pattern takes a written price apart. -/
theorem matchMagnitude_magnitude (h : written.Proper) :
    matchMagnitude written.magnitude = some (written.whole, written.fraction) := by
  obtain ⟨before, negative, whole, separator, fraction, after⟩ := written
  unfold Written.magnitude matchMagnitude
  have hwhole : ∀ c ∈ whole, c.isDigit = true := h.whole
  have hfraction : fraction.all Char.isDigit = true := List.all_eq_true.mpr h.fraction
  cases separator with
  | none =>
    have hnone : fraction = [] := h.unseparated rfl
    have hne : whole ≠ [] := h.digits.resolve_right (not_not_intro hnone)
    subst hnone
    simp only [Option.toList_none, List.append_nil, List.takeWhile_eq_self_iff.mpr hwhole,
      List.dropWhile_eq_nil_iff.mpr hwhole]
    rw [if_neg (by simpa using hne)]
  | some separator =>
    have hseparator : isSeparator separator = true := h.separator separator rfl
    have hstop := not_isDigit_of_isSeparator hseparator
    have hsome : ¬ (whole = [] ∧ fraction = []) := by
      rintro ⟨hwholeNil, hfractionNil⟩
      exact h.digits.elim (fun hne => hne hwholeNil) (fun hne => hne hfractionNil)
    simp only [Option.toList_some, List.append_assoc, List.singleton_append,
      List.takeWhile_append_of_pos hwhole, List.dropWhile_append_of_pos hwhole,
      List.takeWhile_cons, List.dropWhile_cons, hstop, Bool.false_eq_true, if_false,
      List.append_nil]
    rw [if_pos]
    simp only [hseparator, hfraction, Bool.true_and, Bool.not_eq_true', Bool.and_eq_false_iff,
      List.isEmpty_eq_false_iff]
    tauto

/-- What the pattern accepts is a written price. -/
theorem exists_magnitude (h : matchMagnitude text = some (whole, fraction)) (negative : Bool)
    {before after : List Char} (hbefore : ∀ c ∈ before, isSpace c = true)
    (hafter : ∀ c ∈ after, isSpace c = true) : ∃ separator,
      text = whole ++ Option.toList separator ++ fraction ∧
        Written.Proper ⟨before, negative, whole, separator, fraction, after⟩ := by
  have hsplit : text.takeWhile Char.isDigit ++ text.dropWhile Char.isDigit = text :=
    List.takeWhile_append_dropWhile
  have hdigits : ∀ c ∈ text.takeWhile Char.isDigit, c.isDigit = true :=
    fun c hc => List.mem_takeWhile_imp hc
  unfold matchMagnitude at h
  dsimp only at h
  cases hrest : text.dropWhile Char.isDigit with
  | nil =>
    simp only [hrest] at h hsplit
    split at h
    next => cases h
    next hne =>
      obtain ⟨rfl, rfl⟩ := Prod.mk.inj (Option.some.inj h)
      refine ⟨none, ?_, ?_⟩
      · rw [Option.toList_none, hsplit, List.append_nil]
      · constructor
        case before => exact hbefore
        case whole => exact hdigits
        case separator => exact fun _ hc => (by cases hc)
        case fraction => exact fun _ hc => (by cases hc)
        case unseparated => exact fun _ => rfl
        case digits => exact Or.inl (by simpa using hne)
        case after => exact hafter
  | cons separator rest =>
    simp only [hrest] at h hsplit
    split at h
    next hgood =>
      obtain ⟨rfl, rfl⟩ := Prod.mk.inj (Option.some.inj h)
      simp only [Bool.and_eq_true, Bool.not_eq_true', Bool.and_eq_false_iff,
        List.isEmpty_eq_false_iff] at hgood
      refine ⟨some separator, ?_, ?_⟩
      · rw [Option.toList_some, List.append_assoc, List.singleton_append, hsplit]
      · constructor
        case before => exact hbefore
        case whole => exact hdigits
        case separator =>
          intro c hc
          obtain rfl := Option.mem_some.mp hc
          exact hgood.1.1
        case fraction => exact List.all_eq_true.mp hgood.1.2
        case unseparated => exact fun hnone => nomatch hnone
        case digits => exact hgood.2
        case after => exact hafter
    next => cases h

/-- A price begins with a minus only where it is negative. -/
theorem matchPrice_text (h : written.Proper) :
    matchPrice ((if written.negative then ['-'] else []) ++ written.magnitude) =
      some (written.negative, written.whole, written.fraction) := by
  have hmatch := matchMagnitude_magnitude h
  cases hsign : written.negative with
  | true =>
    show (matchMagnitude written.magnitude).map _ = _
    rw [hmatch]
    rfl
  | false =>
    have hplain : ∀ rest, written.magnitude ≠ '-' :: rest := by
      rintro rest hminus
      rw [hminus] at hmatch
      -- a minus is neither a digit nor a separator
      cases hmatch
    unfold matchPrice
    split
    next rest heq => exact absurd heq (hplain rest)
    next => simp [hmatch]

/-- No part of a price is white space. -/
theorem trim_text (h : written.Proper) :
    trim written.text = (if written.negative then ['-'] else []) ++ written.magnitude := by
  apply trim_append h.before _ h.after
  intro c hc
  rcases List.mem_append.mp hc with hsign | hmagnitude
  · split at hsign
    next =>
      obtain rfl := List.mem_singleton.mp hsign
      rfl
    next => cases hsign
  · unfold Written.magnitude at hmagnitude
    rcases List.mem_append.mp hmagnitude with hfront | hfraction
    · rcases List.mem_append.mp hfront with hwhole | hseparator
      · exact isSpace_of_isDigit (h.whole c hwhole)
      · exact not_isSpace_of_isSeparator (h.separator c (Option.mem_toList.mp hseparator))
    · exact isSpace_of_isDigit (h.fraction c hfraction)

theorem exists_written (h : matchPrice (trim text) = some (negative, whole, fraction)) :
    ∃ written : Written, written.Proper ∧ written.text = text ∧ written.negative = negative ∧
      written.whole = whole ∧ written.fraction = fraction := by
  obtain ⟨before, after, htext, hbefore, hafter⟩ := exists_trim text
  unfold matchPrice at h
  split at h
  next rest hminus =>
    obtain ⟨⟨front, behind⟩, hmatch, heq⟩ := Option.map_eq_some_iff.mp h
    obtain ⟨rfl, rfl, rfl⟩ : true = negative ∧ front = whole ∧ behind = fraction := by
      simpa using heq
    obtain ⟨separator, hrest, hproper⟩ := exists_magnitude hmatch true hbefore hafter
    refine ⟨_, hproper, ?_, rfl, rfl, rfl⟩
    rw [htext, hminus, hrest]
    rfl
  next =>
    obtain ⟨⟨front, behind⟩, hmatch, heq⟩ := Option.map_eq_some_iff.mp h
    obtain ⟨rfl, rfl, rfl⟩ : false = negative ∧ front = whole ∧ behind = fraction := by
      simpa using heq
    obtain ⟨separator, hrest, hproper⟩ := exists_magnitude hmatch false hbefore hafter
    refine ⟨_, hproper, ?_, rfl, rfl, rfl⟩
    conv_rhs => rw [htext, hrest]
    rfl

/-! ## Amounts -/

theorem signed_natAbs (negative : Bool) (magnitude : ℕ) :
    (signed negative magnitude).natAbs = magnitude := by
  cases negative with
  | true => exact Int.natAbs_neg _
  | false => rfl

theorem signed_cast (negative : Bool) (magnitude : ℕ) :
    (signed negative magnitude : ℚ) = (if negative then -1 else 1) * (magnitude : ℚ) := by
  cases negative with
  | true => simp [signed]
  | false => simp [signed]

/-- The digits in minor units, leading zeros apart, are the whole digits followed by the
fraction. -/
theorem ofDigitChars_minorDigits (whole : List Char) (hlength : fraction.length ≤ unit) :
    Nat.ofDigitChars 10 (minorDigits whole fraction unit) 0 =
      Nat.ofDigitChars 10 whole 0 * 10 ^ unit +
        Nat.ofDigitChars 10 fraction 0 * 10 ^ (unit - fraction.length) := by
  have hwhole : Nat.ofDigitChars 10 (if whole.isEmpty then ['0'] else whole) 0 =
      Nat.ofDigitChars 10 whole 0 := by
    split
    next hempty =>
      rw [List.isEmpty_iff.mp hempty]
      rfl
    next => rfl
  obtain ⟨rest, rfl⟩ := Nat.exists_eq_add_of_le hlength
  unfold minorDigits List.rightpad
  rw [ofDigitChars_dropWhile_zero, Nat.ofDigitChars_append, Nat.ofDigitChars_append,
    Nat.ofDigitChars_replicate_zero, Nat.ofDigitChars_eq_ofDigitChars_zero, hwhole,
    Nat.add_sub_cancel_left]
  ring

/-- The value of a price in minor units. -/
theorem value_mul_pow (hlength : written.fraction.length ≤ unit) :
    written.value * 10 ^ unit =
      signed written.negative
        (Nat.ofDigitChars 10 (minorDigits written.whole written.fraction unit) 0) := by
  rw [signed_cast, ofDigitChars_minorDigits _ hlength]
  obtain ⟨rest, hrest⟩ := Nat.exists_eq_add_of_le hlength
  rw [hrest, Nat.add_sub_cancel_left, Written.value]
  push_cast
  field_simp
  ring

theorem isDigit_of_mem_minorDigits (h : written.Proper) (unit : ℕ) :
    ∀ c ∈ minorDigits written.whole written.fraction unit, c.isDigit = true := by
  intro c hc
  rcases List.mem_append.mp ((List.dropWhile_suffix _).mem hc) with hfront | hback
  · split at hfront
    next =>
      obtain rfl := List.mem_singleton.mp hfront
      rfl
    next => exact h.whole c hfront
  · rcases List.mem_append.mp hback with hfraction | hzero
    · exact h.fraction c hfraction
    · obtain rfl := List.eq_of_mem_replicate hzero
      rfl

/-- A safe magnitude has no more than 16 digits. -/
theorem length_minorDigits_le (h : written.Proper)
    (hsafe : Nat.ofDigitChars 10 (minorDigits written.whole written.fraction unit) 0 ≤
      maxSafeInteger) : (minorDigits written.whole written.fraction unit).length ≤ 16 := by
  have hsmall : maxSafeInteger < 10 ^ 16 := by norm_num [maxSafeInteger]
  have hdigits := isDigit_of_mem_minorDigits h unit
  have hlength := length_dropWhile_zero_le hdigits (hsafe.trans_lt hsmall)
  unfold minorDigits at hlength ⊢
  rwa [List.dropWhile_idempotent] at hlength

theorem isSafe_signed : Number.IsSafe (signed negative magnitude) ↔ magnitude ≤ maxSafeInteger := by
  unfold Number.IsSafe maxSafeInteger
  rw [signed_natAbs]
  omega

/-- What the parser does with a written price. -/
theorem parseMajorToMinor_written (h : written.Proper) (hlarge : unit ≤ 20) :
    parseMajorToMinor (String.ofList written.text) unit allowNegative = some amount ↔
      (written.negative = true → allowNegative = true) ∧ written.fraction.length ≤ unit ∧
        Number.IsSafe amount ∧ (amount : ℚ) = written.value * 10 ^ unit := by
  have hrange : ¬ ((unit : ℤ) < 0 ∨ 20 < (unit : ℤ)) := by omega
  unfold parseMajorToMinor
  simp only [if_neg hrange, String.toList_ofList, trim_text h, matchPrice_text h, Int.toNat_natCast]
  constructor
  · intro hparse
    split_ifs at hparse with hsign hlength hdigits hmagnitude
    obtain rfl := Option.some.inj hparse
    refine ⟨?_, Nat.le_of_not_lt hlength, isSafe_signed.mpr (Nat.le_of_not_lt hmagnitude),
      (value_mul_pow (Nat.le_of_not_lt hlength)).symm⟩
    intro hnegative
    simpa [hnegative] using hsign
  · rintro ⟨hsign, hlength, hsafe, hvalue⟩
    rw [value_mul_pow hlength] at hvalue
    obtain rfl : amount = _ := Int.cast_injective hvalue
    have hmagnitude := isSafe_signed.mp hsafe
    have hdigits := length_minorDigits_le h hmagnitude
    have hallowed : ¬ (written.negative && !allowNegative) = true := by
      simpa using hsign
    rw [if_neg hallowed, if_neg (Nat.not_lt.mpr hlength), if_neg (Nat.not_lt.mpr hdigits),
      if_neg (Nat.not_lt.mpr hmagnitude)]

/-- Every text that the parser accepts is a written price. -/
theorem exists_written_of_parse {value : String}
    (h : parseMajorToMinor value minorUnit allowNegative = some amount) :
    ∃ written : Written, written.Proper ∧ written.text = value.toList := by
  unfold parseMajorToMinor at h
  split_ifs at h
  split at h
  next => cases h
  next negative whole fraction hmatch =>
    obtain ⟨written, hproper, htext, -⟩ := exists_written hmatch
    exact ⟨written, hproper, htext⟩

/-! ## Formatting -/

def shown (amount : ℤ) (unit : ℕ) : Written where
  before := []
  negative := decide (amount < 0)
  whole := (majorDigits amount unit).take ((majorDigits amount unit).length - unit)
  separator := if unit = 0 then none else some '.'
  fraction := (majorDigits amount unit).drop ((majorDigits amount unit).length - unit)
  after := []

theorem lt_length_majorDigits (amount : ℤ) (unit : ℕ) :
    unit < (majorDigits amount unit).length := by
  unfold majorDigits
  rw [List.length_leftpad]
  omega

theorem length_fraction_shown (amount : ℤ) (unit : ℕ) :
    (shown amount unit).fraction.length = unit := by
  have hlength := lt_length_majorDigits amount unit
  unfold shown
  rw [List.length_drop]
  omega

theorem proper_shown (amount : ℤ) (unit : ℕ) : (shown amount unit).Proper := by
  have hlength := lt_length_majorDigits amount unit
  have hdigits : ∀ c ∈ majorDigits amount unit, c.isDigit = true := by
    intro c hc
    rcases List.mem_append.mp hc with hzero | hdigit
    · obtain rfl := List.eq_of_mem_replicate hzero
      rfl
    · exact Nat.isDigit_of_mem_toDigits (by decide) (by decide) hdigit
  constructor
  case before => exact fun _ hc => (by cases hc)
  case whole => exact fun c hc => hdigits c (List.mem_of_mem_take hc)
  case separator =>
    intro c hc
    by_cases hunit : unit = 0
    · simp [shown, hunit] at hc
    · obtain rfl : '.' = c := by simpa [shown, hunit] using hc
      rfl
  case fraction => exact fun c hc => hdigits c (List.mem_of_mem_drop hc)
  case unseparated =>
    intro hnone
    have hunit : unit = 0 := by
      by_contra hunit
      simp [shown, hunit] at hnone
    have hfraction := length_fraction_shown amount unit
    exact List.length_eq_zero_iff.mp (hfraction.trans hunit)
  case digits =>
    left
    apply List.ne_nil_of_length_pos
    show 0 < ((majorDigits amount unit).take _).length
    rw [List.length_take]
    omega
  case after => exact fun _ hc => (by cases hc)

theorem formatMinorToMajor_eq (hsafe : Number.IsSafe amount) (hlarge : unit ≤ 20) :
    formatMinorToMajor amount unit = some (String.ofList (shown amount unit).text) := by
  have hrange : ¬ (¬ Number.IsSafe amount ∨ (unit : ℤ) < 0 ∨ 20 < (unit : ℤ)) := by
    rw [not_or, not_not]
    exact ⟨hsafe, by omega⟩
  unfold formatMinorToMajor Written.text Written.magnitude
  rw [if_neg hrange]
  dsimp only [shown]
  rw [Int.toNat_natCast, List.nil_append, List.append_nil]
  have hsign : ∀ decimal : List Char, (if amount < 0 then '-' :: decimal else decimal) =
      (if decide (amount < 0) = true then ['-'] else []) ++ decimal := by
    intro decimal
    by_cases hnegative : amount < 0 <;> simp [hnegative]
  rw [hsign]
  by_cases hunit : unit = 0
  · subst hunit
    simp
  · simp [hunit]

/-- The price that is shown has the value of the amount. -/
theorem value_shown (amount : ℤ) (unit : ℕ) :
    (shown amount unit).value * 10 ^ unit = amount := by
  have hfraction := length_fraction_shown amount unit
  have hdigits : Nat.ofDigitChars 10 (shown amount unit).whole 0 * 10 ^ unit +
      Nat.ofDigitChars 10 (shown amount unit).fraction 0 = amount.natAbs := by
    have happend : (shown amount unit).whole ++ (shown amount unit).fraction =
        majorDigits amount unit := List.take_append_drop _ _
    have hvalue : Nat.ofDigitChars 10 (majorDigits amount unit) 0 = amount.natAbs := by
      unfold majorDigits List.leftpad
      rw [Nat.ofDigitChars_append, Nat.ofDigitChars_replicate_zero, Nat.mul_zero,
        Nat.ofDigitChars_ten_toDigits]
    rw [← hvalue, ← happend, Nat.ofDigitChars_append,
      @Nat.ofDigitChars_eq_ofDigitChars_zero _ (Nat.ofDigitChars 10 (shown amount unit).whole 0),
      hfraction, Nat.mul_comm]
  rw [value_mul_pow hfraction.le, ofDigitChars_minorDigits _ hfraction.le, hfraction,
    Nat.sub_self, Nat.pow_zero, Nat.mul_one, hdigits]
  congr 1
  show (if decide (amount < 0) = true then _ else _) = amount
  split_ifs with hnegative
  · have hlt := of_decide_eq_true hnegative
    omega
  · have hge : ¬ amount < 0 := by simpa using hnegative
    omega

/-- An amount that is shown is read back, and the parser accepts exactly the written prices that
are safe amounts of whole minor units, with their values. -/
theorem parseMajorToMinor_exact (minorUnit : ℕ) (hunit : minorUnit ≤ 20) (allowNegative : Bool) :
    (∀ amount, Number.IsSafe amount → (amount < 0 → allowNegative = true) →
      ∃ text, formatMinorToMajor amount minorUnit = some text ∧
        parseMajorToMinor text minorUnit allowNegative = some amount) ∧
    ∀ text amount, parseMajorToMinor text minorUnit allowNegative = some amount ↔
      ∃ written : Written, written.Proper ∧ written.text = text.toList ∧
        (written.negative = true → allowNegative = true) ∧
        written.fraction.length ≤ minorUnit ∧ Number.IsSafe amount ∧
        (amount : ℚ) = written.value * 10 ^ minorUnit := by
  constructor
  · intro amount hsafe hsign
    refine ⟨_, formatMinorToMajor_eq hsafe hunit, ?_⟩
    rw [parseMajorToMinor_written (proper_shown amount minorUnit) hunit]
    refine ⟨?_, (length_fraction_shown amount minorUnit).le, hsafe,
      (value_shown amount minorUnit).symm⟩
    intro hnegative
    exact hsign (of_decide_eq_true hnegative)
  · intro text amount
    constructor
    · intro hparse
      obtain ⟨written, hproper, htext⟩ := exists_written_of_parse hparse
      rw [← String.ofList_toList (s := text), ← htext, parseMajorToMinor_written hproper hunit]
        at hparse
      exact ⟨written, hproper, htext, hparse⟩
    · rintro ⟨written, hproper, htext, haccepted⟩
      rw [← String.ofList_toList (s := text), ← htext, parseMajorToMinor_written hproper hunit]
      exact haccepted

theorem parseMajorToMinor_exact_euro :
    parseMajorToMinor "-0.29" 2 true = some (-29) ∧
      ∃ text, formatMinorToMajor (-29) 2 = some text ∧
        parseMajorToMinor text 2 true = some (-29) := by
  refine ⟨by decide +kernel, ?_⟩
  exact (parseMajorToMinor_exact 2 (by decide) true).1 (-29) (by decide) (fun _ => rfl)

end SteamBee.Web

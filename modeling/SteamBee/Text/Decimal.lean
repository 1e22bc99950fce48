import Mathlib.Algebra.Group.Nat.Defs
import Mathlib.Data.List.DropRight
import SteamBee.Text.Search

/-! Texts of decimal digits: their values, leading zeros, and the white space around a text. -/
namespace Text
variable {text before core after digits : List Char} {c : Char} {k : ℕ}

def trim (text : List Char) : List Char := (text.dropWhile isSpace).rdropWhile isSpace

theorem trim_append (hbefore : ∀ c ∈ before, isSpace c = true)
    (hcore : ∀ c ∈ core, isSpace c = false) (hafter : ∀ c ∈ after, isSpace c = true) :
    trim (before ++ core ++ after) = core := by
  have hend : (core ++ after).rdropWhile isSpace = core := by
    have hback : ∀ c ∈ after.reverse, isSpace c = true := by
      intro c hc
      exact hafter c (List.mem_reverse.mp hc)
    have hkept : core.reverse.dropWhile isSpace = core.reverse := by
      cases hreverse : core.reverse with
      | nil => rfl
      | cons last rest =>
        have hlast : last ∈ core := by
          rw [← List.mem_reverse, hreverse]
          exact List.mem_cons_self
        rw [List.dropWhile_cons_of_neg (by rw [hcore last hlast]; exact Bool.false_ne_true)]
    rw [List.rdropWhile, List.reverse_append, List.dropWhile_append_of_pos hback, hkept,
      List.reverse_reverse]
  unfold trim
  rw [List.append_assoc, List.dropWhile_append_of_pos hbefore]
  cases core with
  | nil =>
    have hall : after.dropWhile isSpace = [] := List.dropWhile_eq_nil_iff.mpr hafter
    rw [List.nil_append, hall, List.rdropWhile_nil]
  | cons first rest =>
    have hfirst := hcore first List.mem_cons_self
    rw [List.cons_append,
      List.dropWhile_cons_of_neg (by rw [hfirst]; exact Bool.false_ne_true)]
    exact hend

/-- What `trim` takes away. -/
theorem exists_trim (text : List Char) : ∃ before after, text = before ++ trim text ++ after ∧
    (∀ c ∈ before, isSpace c = true) ∧ ∀ c ∈ after, isSpace c = true := by
  refine ⟨text.takeWhile isSpace, (text.dropWhile isSpace).rtakeWhile isSpace, ?_, ?_, ?_⟩
  · unfold trim
    rw [List.append_assoc, List.rdropWhile_append_rtakeWhile, List.takeWhile_append_dropWhile]
  · intro c hc
    exact List.mem_takeWhile_imp hc
  · intro c hc
    exact List.mem_rtakeWhile_imp hc

/-! ## Digits -/

theorem isSpace_of_isDigit (h : c.isDigit = true) : isSpace c = false := by
  simp only [Char.isDigit, Bool.and_eq_true, decide_eq_true_eq, UInt32.le_iff_toNat_le] at h
  have hcode : 48 ≤ c.toNat ∧ c.toNat ≤ 57 := h
  unfold isSpace
  simp only [Bool.or_eq_false_iff, Bool.and_eq_false_iff, decide_eq_false_iff_not,
    beq_eq_false_iff_ne]
  omega

/-- Leading zeros say nothing. -/
theorem ofDigitChars_dropWhile_zero (digits : List Char) :
    Nat.ofDigitChars 10 (digits.dropWhile (· == '0')) 0 = Nat.ofDigitChars 10 digits 0 := by
  induction digits with
  | nil => rfl
  | cons c digits ih =>
    rw [List.dropWhile_cons]
    split
    next hzero =>
      obtain rfl := beq_iff_eq.mp hzero
      exact ih
    next => rfl

/-- A text of digits that does not begin with a zero is large. -/
theorem pow_length_le (digits : List Char) (hdigit : c.isDigit = true) (hzero : c ≠ '0') :
    10 ^ digits.length ≤ Nat.ofDigitChars 10 (c :: digits) 0 := by
  simp only [Char.isDigit, Bool.and_eq_true, decide_eq_true_eq, UInt32.le_iff_toNat_le] at hdigit
  have hlow : 48 ≤ c.toNat := hdigit.1
  have hne : c.toNat ≠ 48 := by
    intro hcode
    apply hzero
    exact Char.ext (UInt32.toNat_inj.mp hcode)
  have hvalue : 1 ≤ 10 * 0 + (c.toNat - '0'.toNat) := by
    show 1 ≤ 10 * 0 + (c.toNat - 48)
    omega
  rw [Nat.ofDigitChars_cons, Nat.ofDigitChars_eq_ofDigitChars_zero]
  calc 10 ^ digits.length = 10 ^ digits.length * 1 := (Nat.mul_one _).symm
    _ ≤ 10 ^ digits.length * (10 * 0 + (c.toNat - '0'.toNat)) := Nat.mul_le_mul_left _ hvalue
    _ ≤ _ := Nat.le_add_right _ _

theorem length_dropWhile_zero_le (hdigits : ∀ c ∈ digits, c.isDigit = true)
    (hvalue : Nat.ofDigitChars 10 digits 0 < 10 ^ k) :
    (digits.dropWhile (· == '0')).length ≤ k := by
  rw [← ofDigitChars_dropWhile_zero] at hvalue
  cases hrest : digits.dropWhile (· == '0') with
  | nil => exact Nat.zero_le k
  | cons c rest =>
    have hmem : c ∈ digits.dropWhile (· == '0') := by
      rw [hrest]
      exact List.mem_cons_self
    have hzero : c ≠ '0' := by
      intro heq
      have hne : digits.dropWhile (· == '0') ≠ [] := by
        rw [hrest]
        exact List.cons_ne_nil _ _
      have hhead := List.head_dropWhile_not (· == '0') hne
      simp only [hrest, List.head_cons, heq, beq_self_eq_true, Bool.true_eq_false] at hhead
    rw [hrest] at hvalue
    have hdigit := hdigits c ((List.dropWhile_suffix _).mem hmem)
    have hlarge := pow_length_le rest hdigit hzero
    exact (Nat.pow_lt_pow_iff_right (by decide)).mp (hlarge.trans_lt hvalue)

end Text

import Mathlib.Data.Int.Log
import Mathlib.Data.Rat.Floor

/-! Numbers as they are written in JSON: a literal stands for the nearest double, ties to
even. Only integers are told apart; any other number is kept as its literal. -/
namespace Text

/-- The integer nearest to `q`, the even one of two. -/
def roundHalfEven (q : ℚ) : ℤ :=
  let below := ⌊q⌋
  let rest := q - below
  if rest < 1 / 2 then below
  else if 1 / 2 < rest then below + 1
  else if below % 2 = 0 then below
  else below + 1

/-- The double nearest to `q`; `none` stands for an infinite one. -/
def toDouble (q : ℚ) : Option ℚ :=
  let unit : ℚ := 2 ^ (max (Int.log 2 |q|) (-1022) - 52)
  let rounded := roundHalfEven (q / unit) * unit
  if |rounded| < 2 ^ 1024 then some rounded else none

/-- `integer` is a double that is an integer. -/
inductive Number where
  | integer (n : ℤ)
  | other (literal : List Char)
  deriving DecidableEq, Repr

namespace Number

def ofLiteral (literal : List Char) (q : ℚ) : Number :=
  match toDouble q with
  | some double => if double.den = 1 then .integer double.num else .other literal
  | none => .other literal

def text : Number → List Char
  | .integer n => if n < 0 then '-' :: Nat.toDigits 10 n.natAbs else Nat.toDigits 10 n.natAbs
  | .other literal => literal

/-- `Number.isSafeInteger`. -/
def IsSafe (n : ℤ) : Prop := n.natAbs < 2 ^ 53

instance (n : ℤ) : Decidable (IsSafe n) := inferInstanceAs (Decidable (_ < _))

end Number

theorem roundHalfEven_intCast (n : ℤ) : roundHalfEven n = n := by
  simp [roundHalfEven]

theorem log_abs_le {n : ℤ} (h : Number.IsSafe n) : Int.log 2 |(n : ℚ)| ≤ 52 := by
  by_cases hzero : n = 0
  · simp [hzero]
  · have hpos : (0 : ℚ) < |(n : ℚ)| := abs_pos.mpr (Int.cast_ne_zero.mpr hzero)
    have hlt : |(n : ℚ)| < (2 : ℕ) ^ (53 : ℤ) := by
      have hnat : (n.natAbs : ℚ) < (2 : ℚ) ^ 53 := by exact_mod_cast h
      rw [Nat.cast_natAbs, Int.cast_abs] at hnat
      exact_mod_cast hnat
    have hlog := (Int.lt_zpow_iff_log_lt Nat.one_lt_two hpos).mp hlt
    omega

/-- Every safe integer is a double. -/
theorem toDouble_intCast {n : ℤ} (h : Number.IsSafe n) : toDouble n = some (n : ℚ) := by
  have hlog := log_abs_le h
  obtain ⟨k, hk⟩ : ∃ k : ℕ, max (Int.log 2 |(n : ℚ)|) (-1022) - 52 = -(k : ℤ) :=
    ⟨(52 - max (Int.log 2 |(n : ℚ)|) (-1022)).toNat, by omega⟩
  have hquotient : (n : ℚ) / (2 ^ (-(k : ℤ))) = ((n * 2 ^ k : ℤ) : ℚ) := by
    rw [zpow_neg, zpow_natCast, div_inv_eq_mul]
    push_cast
    rfl
  have hback : ((n * 2 ^ k : ℤ) : ℚ) * 2 ^ (-(k : ℤ)) = n := by
    rw [zpow_neg, zpow_natCast]
    push_cast
    field_simp
  have hsmall : |(n : ℚ)| < 2 ^ 1024 := by
    have hnat : (n.natAbs : ℚ) < (2 : ℚ) ^ 53 := by exact_mod_cast h
    rw [Nat.cast_natAbs, Int.cast_abs] at hnat
    exact hnat.trans (pow_lt_pow_right₀ one_lt_two (by decide))
  unfold toDouble
  dsimp only
  rw [hk, hquotient, roundHalfEven_intCast, hback, if_pos hsmall]

theorem Number.ofLiteral_intCast {n : ℤ} (h : IsSafe n) (literal : List Char) :
    ofLiteral literal n = .integer n := by
  unfold ofLiteral
  rw [toDouble_intCast h]
  exact if_pos (Rat.den_intCast n)

end Text

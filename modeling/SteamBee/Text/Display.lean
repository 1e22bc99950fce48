import Mathlib.Data.Rat.Floor
import SteamBee.Text.Json

/-! How a value of JSON is written as a string: `String(value)` of a value that `JSON.parse` has
returned. -/
namespace Text

namespace Number

def literalValue : List Char → Option ℚ
  | '-' :: rest => (Json.parseMagnitude rest).bind fun (q, _) => (toDouble q).map Neg.neg
  | literal => (Json.parseMagnitude literal).bind fun (q, _) => toDouble q

/-- The integers with at most the digits up to 10^`place` that stand for the double `d`, nearest
first. -/
def candidates (d : ℚ) (place : ℤ) : List ℕ :=
  let scaled := d / 10 ^ place
  [(roundHalfEven scaled).natAbs, ⌊scaled⌋.natAbs, ⌊scaled⌋.natAbs + 1].filter fun s =>
    toDouble (s * 10 ^ place) == some d

/-- The shortest digits that stand for the positive double `d`, which is below 10^`point`, and
where their decimal point is: rounding up may move it. The first argument bounds the digits that
may still be added. -/
def shortest (d : ℚ) (point : ℤ) : ℕ → ℕ → List Char × ℤ
  | 0, _ => ([], point)
  | more + 1, digits =>
    match candidates d (point - digits) with
    | s :: _ =>
      let shown := Nat.toDigits 10 s
      (if digits < shown.length then shown.dropLast else shown, point - digits + shown.length)
    | [] => shortest d point more (digits + 1)

/-- Digits with the decimal point after `point` of them, and with an exponent where there would
be too many zeros. -/
def layout (digits : List Char) (point : ℤ) : List Char :=
  let exponent := point - 1
  if digits.length ≤ point ∧ point ≤ 21 then
    digits ++ List.replicate (point.toNat - digits.length) '0'
  else if 0 < point ∧ point ≤ 21 then
    digits.take point.toNat ++ '.' :: digits.drop point.toNat
  else if -6 < point ∧ point ≤ 0 then
    '0' :: '.' :: (List.replicate (-point).toNat '0' ++ digits)
  else
    digits.take 1 ++ (if digits.length = 1 then [] else '.' :: digits.drop 1) ++
      'e' :: (if exponent < 0 then '-' else '+') :: Nat.toDigits 10 exponent.natAbs

def displayDouble (d : ℚ) : List Char :=
  let (shown, point) := shortest |d| (Int.log 10 |d| + 1) 17 1
  let digits := layout shown point
  if d < 0 then '-' :: digits else digits

/-- `String(n)`. -/
def display : Number → List Char
  | .integer n => if n.natAbs < 10 ^ 21 then text (.integer n) else displayDouble n
  | .other literal =>
    match literalValue literal with
    | some d => displayDouble d
    | none =>
      if literal.head? = some '-' then "-Infinity".toList else "Infinity".toList

end Number

namespace Json

mutual

/-- How a value is shown as an item of an array, where `null` shows nothing; `none` stands for
the `TypeError` of an object that hides its `toString`. -/
def displayItem : Json → Option String
  | .null => some ""
  | .bool true => some "true"
  | .bool false => some "false"
  | .num n => some (String.ofList n.display)
  | .str s => some s
  | .arr items => displayItems items
  | .obj fields => if (lookup fields "toString").isSome then none else some "[object Object]"
termination_by structural v => v

def displayItems : List Json → Option String
  | [] => some ""
  | [v] => displayItem v
  | v :: w :: rest => do
    let first ← displayItem v
    let others ← displayItems (w :: rest)
    some (first ++ "," ++ others)
termination_by structural items => items

end

/-- `String(value)`. -/
def display : Json → Option String
  | .null => some "null"
  | v => displayItem v

end Json
end Text

import Mathlib.Data.Nat.Notation
import Mathlib.Tactic.SplitIfs

/-! Base64 with the standard alphabet and padding: three bytes are four sextets. The shape
of a text is what the regular expression of canonical base64 asks for; the unused bits of
its last group are another matter. -/
namespace Text.Base64

abbrev Bytes := List UInt8

def symbol (n : ℕ) : Char :=
  if n < 26 then Char.ofNat (65 + n)
  else if n < 52 then Char.ofNat (71 + n)
  else if n < 62 then Char.ofNat (n - 4)
  else if n = 62 then '+'
  else '/'

def sextet (c : Char) : Option ℕ :=
  if 65 ≤ c.toNat ∧ c.toNat ≤ 90 then some (c.toNat - 65)
  else if 97 ≤ c.toNat ∧ c.toNat ≤ 122 then some (c.toNat - 71)
  else if 48 ≤ c.toNat ∧ c.toNat ≤ 57 then some (c.toNat + 4)
  else if c = '+' then some 62
  else if c = '/' then some 63
  else none

def isSymbol (c : Char) : Bool := (sextet c).isSome

/-- The three bytes of four sextets, the padding counted as zero. -/
def byte₁ (a b : ℕ) : UInt8 := UInt8.ofNat (a * 4 + b / 16)

def byte₂ (b c : ℕ) : UInt8 := UInt8.ofNat (b % 16 * 16 + c / 4)

def byte₃ (c d : ℕ) : UInt8 := UInt8.ofNat (c % 4 * 64 + d)

def encode : Bytes → List Char
  | [] => []
  | [x] => [symbol (x.toNat / 4), symbol (x.toNat % 4 * 16), '=', '=']
  | [x, y] => [symbol (x.toNat / 4), symbol (x.toNat % 4 * 16 + y.toNat / 16),
      symbol (y.toNat % 16 * 4), '=']
  | x :: y :: z :: rest =>
    symbol (x.toNat / 4) :: symbol (x.toNat % 4 * 16 + y.toNat / 16) ::
      symbol (y.toNat % 16 * 4 + z.toNat / 64) :: symbol (z.toNat % 64) :: encode rest

/-- Groups of four symbols, of which the last may end in one or two paddings. -/
def hasShape : List Char → Bool
  | [] => true
  | a :: b :: c :: d :: rest =>
    isSymbol a && isSymbol b &&
      (isSymbol c && isSymbol d && hasShape rest ||
        isSymbol c && d == '=' && rest.isEmpty || c == '=' && d == '=' && rest.isEmpty)
  | _ => false

/-- The bytes of a text that has the shape; unused bits are dropped. -/
def decode : List Char → Bytes
  | a :: b :: c :: d :: rest =>
    let value (c : Char) := (sextet c).getD 0
    if c = '=' then [byte₁ (value a) (value b)]
    else if d = '=' then [byte₁ (value a) (value b), byte₂ (value b) (value c)]
    else byte₁ (value a) (value b) :: byte₂ (value b) (value c) :: byte₃ (value c) (value d) ::
      decode rest
  | _ => []

theorem sextet_symbol {n : ℕ} (h : n < 64) : sextet (symbol n) = some n := by
  have hall : ∀ m : Fin 64, sextet (symbol m.val) = some m.val := by decide
  exact hall ⟨n, h⟩

theorem symbol_ne_pad {n : ℕ} (h : n < 64) : symbol n ≠ '=' := by
  intro heq
  have hsextet := sextet_symbol h
  rw [heq] at hsextet
  cases hsextet

theorem isSymbol_symbol {n : ℕ} (h : n < 64) : isSymbol (symbol n) = true := by
  rw [isSymbol, sextet_symbol h]
  rfl

theorem byte₁_of (x y : UInt8) : byte₁ (x.toNat / 4) (x.toNat % 4 * 16 + y.toNat / 16) = x := by
  have hy : y.toNat < 256 := y.toNat_lt
  have h : x.toNat / 4 * 4 + (x.toNat % 4 * 16 + y.toNat / 16) / 16 = x.toNat := by omega
  rw [byte₁, h, UInt8.ofNat_toNat]

theorem byte₂_of (x y z : UInt8) :
    byte₂ (x.toNat % 4 * 16 + y.toNat / 16) (y.toNat % 16 * 4 + z.toNat / 64) = y := by
  have hy : y.toNat < 256 := y.toNat_lt
  have hz : z.toNat < 256 := z.toNat_lt
  have h : (x.toNat % 4 * 16 + y.toNat / 16) % 16 * 16 + (y.toNat % 16 * 4 + z.toNat / 64) / 4 =
      y.toNat := by omega
  rw [byte₂, h, UInt8.ofNat_toNat]

theorem byte₃_of (y z : UInt8) :
    byte₃ (y.toNat % 16 * 4 + z.toNat / 64) (z.toNat % 64) = z := by
  have hz : z.toNat < 256 := z.toNat_lt
  have h : (y.toNat % 16 * 4 + z.toNat / 64) % 4 * 64 + z.toNat % 64 = z.toNat := by omega
  rw [byte₃, h, UInt8.ofNat_toNat]

/-- By induction on the groups of three bytes. -/
theorem decode_encode (bytes : Bytes) : decode (encode bytes) = bytes := by
  induction bytes using encode.induct with
  | case1 => rfl
  | case2 x =>
    have hx : x.toNat < 256 := x.toNat_lt
    have ha : sextet (symbol (x.toNat / 4)) = some (x.toNat / 4) := sextet_symbol (by omega)
    have hb : sextet (symbol (x.toNat % 4 * 16)) = some (x.toNat % 4 * 16) :=
      sextet_symbol (by omega)
    have hbyte := byte₁_of x 0
    simpa [encode, decode, ha, hb] using hbyte
  | case3 x y =>
    have hx : x.toNat < 256 := x.toNat_lt
    have hy : y.toNat < 256 := y.toNat_lt
    have ha : sextet (symbol (x.toNat / 4)) = some (x.toNat / 4) := sextet_symbol (by omega)
    have hb : sextet (symbol (x.toNat % 4 * 16 + y.toNat / 16)) =
      some (x.toNat % 4 * 16 + y.toNat / 16) := sextet_symbol (by omega)
    have hc : sextet (symbol (y.toNat % 16 * 4)) = some (y.toNat % 16 * 4) :=
      sextet_symbol (by omega)
    have hpad : symbol (y.toNat % 16 * 4) ≠ '=' := symbol_ne_pad (by omega)
    have hbyte₁ := byte₁_of x y
    have hbyte₂ := byte₂_of x y 0
    simp only [encode, decode, ha, hb, hc, hpad, if_false, if_true, Option.getD_some, hbyte₁]
    simpa using hbyte₂
  | case4 x y z rest ih =>
    have hx : x.toNat < 256 := x.toNat_lt
    have hy : y.toNat < 256 := y.toNat_lt
    have hz : z.toNat < 256 := z.toNat_lt
    have ha : sextet (symbol (x.toNat / 4)) = some (x.toNat / 4) := sextet_symbol (by omega)
    have hb : sextet (symbol (x.toNat % 4 * 16 + y.toNat / 16)) =
      some (x.toNat % 4 * 16 + y.toNat / 16) := sextet_symbol (by omega)
    have hc : sextet (symbol (y.toNat % 16 * 4 + z.toNat / 64)) =
      some (y.toNat % 16 * 4 + z.toNat / 64) := sextet_symbol (by omega)
    have hd : sextet (symbol (z.toNat % 64)) = some (z.toNat % 64) := sextet_symbol (by omega)
    have hpadc : symbol (y.toNat % 16 * 4 + z.toNat / 64) ≠ '=' := symbol_ne_pad (by omega)
    have hpadd : symbol (z.toNat % 64) ≠ '=' := symbol_ne_pad (by omega)
    simp only [encode, decode, ha, hb, hc, hd, hpadc, hpadd, if_false, Option.getD_some,
      byte₁_of, byte₂_of, byte₃_of, ih]

/-! The sextets of a group, the last one of a shorter group padded with zeros. -/

@[simp] theorem isSymbol_first (x : UInt8) : isSymbol (symbol (x.toNat / 4)) = true := by
  have hx : x.toNat < 256 := x.toNat_lt
  exact isSymbol_symbol (by omega)

@[simp] theorem isSymbol_second (x y : UInt8) :
    isSymbol (symbol (x.toNat % 4 * 16 + y.toNat / 16)) = true := by
  have hy : y.toNat < 256 := y.toNat_lt
  exact isSymbol_symbol (by omega)

@[simp] theorem isSymbol_second_padded (x : UInt8) : isSymbol (symbol (x.toNat % 4 * 16)) = true :=
  isSymbol_symbol (by omega)

@[simp] theorem isSymbol_third (y z : UInt8) :
    isSymbol (symbol (y.toNat % 16 * 4 + z.toNat / 64)) = true := by
  have hz : z.toNat < 256 := z.toNat_lt
  exact isSymbol_symbol (by omega)

@[simp] theorem isSymbol_third_padded (y : UInt8) : isSymbol (symbol (y.toNat % 16 * 4)) = true :=
  isSymbol_symbol (by omega)

@[simp] theorem isSymbol_fourth (z : UInt8) : isSymbol (symbol (z.toNat % 64)) = true :=
  isSymbol_symbol (by omega)

/-- The text of an encoding is canonical. -/
theorem hasShape_encode (bytes : Bytes) : hasShape (encode bytes) = true := by
  induction bytes using encode.induct with
  | case1 => rfl
  | case2 x => simp [encode, hasShape]
  | case3 x y => simp [encode, hasShape]
  | case4 x y z rest ih => simp [encode, hasShape, ih]

/-- An encoding has four symbols for three bytes, before its padding. -/
theorem length_symbols_encode (bytes : Bytes) :
    ((encode bytes).takeWhile isSymbol).length = (4 * bytes.length + 2) / 3 := by
  have hpad : isSymbol '=' = false := by decide
  induction bytes using encode.induct with
  | case1 => rfl
  | case2 x => simp [encode, hpad]
  | case3 x y => simp [encode, hpad]
  | case4 x y z rest ih =>
    simp [encode, ih]
    omega

/-- Three bytes are four characters, the last group padded. -/
theorem length_encode (bytes : Bytes) : (encode bytes).length = 4 * ((bytes.length + 2) / 3) := by
  induction bytes using encode.induct with
  | case1 => rfl
  | case2 x => simp [encode]
  | case3 x y => simp [encode]
  | case4 x y z rest ih =>
    simp only [encode, List.length_cons, ih]
    omega

theorem mem_encode {c : Char} {bytes : Bytes} (h : c ∈ encode bytes) : isSymbol c ∨ c = '=' := by
  induction bytes using encode.induct with
  | case1 => cases h
  | case2 x =>
    simp only [encode, List.mem_cons, List.not_mem_nil, or_false] at h
    rcases h with rfl | rfl | rfl | rfl <;> simp
  | case3 x y =>
    simp only [encode, List.mem_cons, List.not_mem_nil, or_false] at h
    rcases h with rfl | rfl | rfl | rfl <;> simp
  | case4 x y z rest ih =>
    simp only [encode, List.mem_cons] at h
    rcases h with rfl | rfl | rfl | rfl | hmem
    · simp
    · simp
    · simp
    · simp
    · exact ih hmem

theorem toNat_of_isSymbol {c : Char} (h : isSymbol c = true) :
    43 ≤ c.toNat ∧ c.toNat < 128 ∧ c.toNat ≠ 92 := by
  unfold isSymbol sextet at h
  split_ifs at h with hupper hlower hdigit hplus hslash
  · omega
  · omega
  · omega
  · subst hplus
    decide
  · subst hslash
    decide
  · cases h

end Text.Base64

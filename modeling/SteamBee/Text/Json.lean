import SteamBee.Text.Number

/-! JSON texts as lists of characters: the printer of values without white space and a
parser of the whole grammar. A lone surrogate of an escape is read as U+FFFD. -/
namespace Text

inductive Json where
  | null
  | bool (value : Bool)
  | num (n : Number)
  | str (s : String)
  | arr (items : List Json)
  | obj (fields : List (String × Json))

namespace Json

/-- The value of a property. Of two with one name the later one counts. -/
def lookup (fields : List (String × Json)) (name : String) : Option Json :=
  fields.reverse.lookup name

/-! ## Strings -/

def hexSymbol (n : ℕ) : Char := if n < 10 then Char.ofNat (48 + n) else Char.ofNat (87 + n)

def hexValue (c : Char) : Option ℕ :=
  if 48 ≤ c.toNat ∧ c.toNat ≤ 57 then some (c.toNat - 48)
  else if 97 ≤ c.toNat ∧ c.toNat ≤ 102 then some (c.toNat - 87)
  else if 65 ≤ c.toNat ∧ c.toNat ≤ 70 then some (c.toNat - 55)
  else none

def codeUnit (a b c d : Char) : Option ℕ := do
  some ((((← hexValue a) * 16 + (← hexValue b)) * 16 + (← hexValue c)) * 16 + (← hexValue d))

def shortEscape (c : Char) : Option Char :=
  if c = '"' then some '"'
  else if c = '\\' then some '\\'
  else if c.toNat = 8 then some 'b'
  else if c.toNat = 9 then some 't'
  else if c.toNat = 10 then some 'n'
  else if c.toNat = 12 then some 'f'
  else if c.toNat = 13 then some 'r'
  else none

def unescape (c : Char) : Option Char :=
  if c = '"' then some '"'
  else if c = '\\' then some '\\'
  else if c = '/' then some '/'
  else if c = 'b' then some (Char.ofNat 8)
  else if c = 't' then some (Char.ofNat 9)
  else if c = 'n' then some (Char.ofNat 10)
  else if c = 'f' then some (Char.ofNat 12)
  else if c = 'r' then some (Char.ofNat 13)
  else none

def escape (c : Char) : List Char :=
  match shortEscape c with
  | some letter => ['\\', letter]
  | none =>
    if c.toNat < 32 then
      ['\\', 'u', '0', '0', hexSymbol (c.toNat / 16), hexSymbol (c.toNat % 16)]
    else [c]

def quote (s : String) : List Char := '"' :: (s.toList.flatMap escape ++ ['"'])

/-- The characters and the escaped code units up to the closing quote, and what follows. -/
def parseChars : List Char → Option (List (Char ⊕ ℕ) × List Char)
  | [] => none
  | c :: rest =>
    if c = '"' then some ([], rest)
    else if c = '\\' then
      match rest with
      | [] => none
      | letter :: rest =>
        if letter = 'u' then
          match rest with
          | a :: b :: c :: d :: rest => do
            let unit ← codeUnit a b c d
            let (items, rest) ← parseChars rest
            some (.inr unit :: items, rest)
          | _ => none
        else do
          let c ← unescape letter
          let (items, rest) ← parseChars rest
          some (.inl c :: items, rest)
    else if c.toNat < 32 then none
    else do
      let (items, rest) ← parseChars rest
      some (.inl c :: items, rest)

def isHigh (unit : ℕ) : Bool := 0xd800 ≤ unit && unit < 0xdc00

def isLow (unit : ℕ) : Bool := 0xdc00 ≤ unit && unit < 0xe000

def lone (high : Option ℕ) : List Char := if high.isSome then [Char.ofNat 0xfffd] else []

/-- Two escaped surrogates are one character; the first argument is a high one that came
just before. -/
def join : Option ℕ → List (Char ⊕ ℕ) → List Char
  | high, [] => lone high
  | high, .inl c :: rest => lone high ++ c :: join none rest
  | high, .inr unit :: rest =>
    if isLow unit then
      match high with
      | some high => Char.ofNat (0x10000 + (high - 0xd800) * 0x400 + (unit - 0xdc00)) ::
          join none rest
      | none => Char.ofNat 0xfffd :: join none rest
    else if isHigh unit then lone high ++ join (some unit) rest
    else lone high ++ Char.ofNat unit :: join none rest

def parseString (text : List Char) : Option (String × List Char) := do
  let (items, rest) ← parseChars text
  some (String.ofList (join none items), rest)

/-! ## Numbers -/

def parseFraction : List Char → Option (List Char × List Char)
  | '.' :: rest =>
    let (digits, rest) := rest.span Char.isDigit
    if digits = [] then none else some (digits, rest)
  | text => some ([], text)

def parseExponent : List Char → Option (ℤ × List Char)
  | [] => some (0, [])
  | c :: rest =>
    if c = 'e' ∨ c = 'E' then
      let (negative, rest) := match rest with
        | '-' :: rest => (true, rest)
        | '+' :: rest => (false, rest)
        | _ => (false, rest)
      let (digits, rest) := rest.span Char.isDigit
      let exponent : ℤ := Nat.ofDigitChars 10 digits 0
      if digits = [] then none else some (if negative then -exponent else exponent, rest)
    else some (0, c :: rest)

def parseMagnitude (text : List Char) : Option (ℚ × List Char) := do
  let (whole, rest) := text.span Char.isDigit
  if whole = [] ∨ (whole.head? = some '0' ∧ whole ≠ ['0']) then none
  else
    let (fraction, rest) ← parseFraction rest
    let (exponent, rest) ← parseExponent rest
    some (Nat.ofDigitChars 10 (whole ++ fraction) 0 * 10 ^ (exponent - fraction.length), rest)

def parseNumber (text : List Char) : Option (Number × List Char) := do
  let (q, rest) ← match text with
    | '-' :: rest => (parseMagnitude rest).map fun (q, rest) => (-q, rest)
    | _ => parseMagnitude text
  some (.ofLiteral (text.take (text.length - rest.length)) q, rest)

/-! ## Values -/

mutual

def stringify : Json → List Char
  | .null => ['n', 'u', 'l', 'l']
  | .bool true => ['t', 'r', 'u', 'e']
  | .bool false => ['f', 'a', 'l', 's', 'e']
  | .num n => n.text
  | .str s => quote s
  | .arr items => '[' :: stringifyItems items
  | .obj fields => '{' :: stringifyFields fields
termination_by structural v => v

def stringifyItems : List Json → List Char
  | [] => [']']
  | [v] => stringify v ++ [']']
  | v :: w :: rest => stringify v ++ ',' :: stringifyItems (w :: rest)
termination_by structural items => items

def stringifyFields : List (String × Json) → List Char
  | [] => ['}']
  | [(name, v)] => quote name ++ ':' :: (stringify v ++ ['}'])
  | (name, v) :: field :: rest =>
    quote name ++ ':' :: (stringify v ++ ',' :: stringifyFields (field :: rest))
termination_by structural fields => fields

end

def isWhite (c : Char) : Bool := c == ' ' || c == '\t' || c == '\n' || c == '\r'

def skipWhite (text : List Char) : List Char := text.dropWhile isWhite

def parseWord (word : List Char) (v : Json) (text : List Char) : Option (Json × List Char) :=
  if word <+: text then some (v, text.drop word.length) else none

mutual

/-- A value at the head of the text. The first argument bounds the recursion; as much as the
length of the text is always enough. -/
def parseValue : ℕ → List Char → Option (Json × List Char)
  | 0, _ => none
  | fuel + 1, text =>
    match skipWhite text with
    | [] => none
    | c :: rest =>
      if c = 'n' then parseWord ['u', 'l', 'l'] .null rest
      else if c = 't' then parseWord ['r', 'u', 'e'] (.bool true) rest
      else if c = 'f' then parseWord ['a', 'l', 's', 'e'] (.bool false) rest
      else if c = '"' then (parseString rest).map fun (s, rest) => (.str s, rest)
      else if c = '[' then
        match skipWhite rest with
        | ']' :: rest => some (.arr [], rest)
        | rest => (parseItems fuel rest).map fun (items, rest) => (.arr items, rest)
      else if c = '{' then
        match skipWhite rest with
        | '}' :: rest => some (.obj [], rest)
        | rest => (parseFields fuel rest).map fun (fields, rest) => (.obj fields, rest)
      else (parseNumber (c :: rest)).map fun (n, rest) => (.num n, rest)

/-- The items of an array that is not empty, and its closing bracket. -/
def parseItems : ℕ → List Char → Option (List Json × List Char)
  | 0, _ => none
  | fuel + 1, text => do
    let (v, rest) ← parseValue fuel text
    match skipWhite rest with
    | ',' :: rest => do
      let (items, rest) ← parseItems fuel rest
      some (v :: items, rest)
    | ']' :: rest => some ([v], rest)
    | _ => none

def parseFields : ℕ → List Char → Option (List (String × Json) × List Char)
  | 0, _ => none
  | fuel + 1, text =>
    match skipWhite text with
    | '"' :: rest => do
      let (name, rest) ← parseString rest
      match skipWhite rest with
      | ':' :: rest => do
        let (v, rest) ← parseValue fuel rest
        match skipWhite rest with
        | ',' :: rest => do
          let (fields, rest) ← parseFields fuel rest
          some ((name, v) :: fields, rest)
        | '}' :: rest => some ([(name, v)], rest)
        | _ => none
      | _ => none
    | _ => none

end

def parse (text : List Char) : Option Json := do
  let (v, rest) ← parseValue (text.length + 1) text
  if skipWhite rest = [] then some v else none

end Json
end Text

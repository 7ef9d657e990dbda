/-!
# Decimal numerals and JSON

`Decimal.digits` writes a natural number, `Decimal.value` reads a row of digits, and reading gives
back what was written: `Decimal.value_digits`.

A reader for JSON texts as RFC 8259 describes them, and the writing of JSON strings. Two things are
kept apart that a value tree usually loses: a natural number without fraction and exponent from any
other number, and a string whose escapes spell text from one that holds a lone surrogate.
-/

set_option autoImplicit false

namespace CxxScript.Text.Decimal

/-- The digit for a number below ten. -/
def digit (n : Nat) : Char := Char.ofNat ('0'.toNat + n)

/-- The decimal digits of a number. -/
def digits (n : Nat) : List Char :=
  if n < 10 then [digit n] else digits (n / 10) ++ [digit (n % 10)]
  termination_by n

/-- The number that a row of digits writes. -/
def value (s : List Char) : Nat := s.foldl (fun n c => n * 10 + (c.toNat - '0'.toNat)) 0

/-- A digit stands for its number. -/
theorem toNat_digit {n : Nat} (h : n < 10) : (digit n).toNat - '0'.toNat = n := by
  revert n
  decide

/-- A digit is a digit. -/
theorem isDigit_digit {n : Nat} (h : n < 10) : (digit n).isDigit = true := by
  revert n
  decide

/-- Reading gives back what was written. -/
theorem value_digits (n : Nat) : value (digits n) = n := by
  fun_induction digits n with
  | case1 n h => simp only [value, List.foldl_cons, List.foldl_nil, toNat_digit h]; omega
  | case2 n h ih =>
    simp only [value, List.foldl_append, List.foldl_cons, List.foldl_nil] at ih ⊢
    rw [ih, toNat_digit (Nat.mod_lt n (by decide))]
    omega

/-- A numeral consists of digits. -/
theorem all_isDigit_digits (n : Nat) : (digits n).all Char.isDigit = true := by
  fun_induction digits n with
  | case1 n h => simp [isDigit_digit h]
  | case2 n h ih => simp [ih, isDigit_digit (Nat.mod_lt n (by decide))]

/-- A numeral is not empty. -/
theorem digits_ne_nil (n : Nat) : digits n ≠ [] := by
  fun_induction digits n <;> simp

end CxxScript.Text.Decimal

namespace CxxScript.Text

/-- A JSON value. A string, or a member's name, is absent where its escapes spell no text. -/
inductive Json where
  | null
  | bool (b : Bool)
  | natural (n : Nat)
  | number
  | string (text : Option String)
  | array (items : List Json)
  | object (members : List (Option String × Json))
  deriving Inhabited

namespace Json

/-- White space between tokens. -/
def isSpace (c : Char) : Bool := c == ' ' || c == '\n' || c == '\t' || c == '\r'

/-- The text behind its white space. -/
def skip (s : List Char) : List Char := s.dropWhile isSpace

/-- The value of a hexadecimal digit. -/
def hexValue? (c : Char) : Option Nat :=
  if c.isDigit then some (c.toNat - '0'.toNat)
  else if 'a' ≤ c && c ≤ 'f' then some (c.toNat - 'a'.toNat + 10)
  else if 'A' ≤ c && c ≤ 'F' then some (c.toNat - 'A'.toNat + 10)
  else none

/-- The number that four hexadecimal digits write. -/
def hex4? (a b c d : Char) : Option Nat := do
  return (((← hexValue? a) * 16 + (← hexValue? b)) * 16 + (← hexValue? c)) * 16 + (← hexValue? d)

/-- The character that a one-letter escape stands for. -/
def escaped? (c : Char) : Option Char :=
  [('"', '"'), ('\\', '\\'), ('/', '/'), ('b', '\x08'), ('f', '\x0c'), ('n', '\n'), ('r', '\r'),
    ('t', '\t')].lookup c

/-- The code points and surrogates of a string up to its closing quote, and the text behind. -/
def codes? : List Char → Option (List Nat × List Char)
  | [] => none
  | '"' :: rest => some ([], rest)
  | '\\' :: 'u' :: a :: b :: c :: d :: rest => do
    let code ← hex4? a b c d
    let (codes, behind) ← codes? rest
    return (code :: codes, behind)
  | '\\' :: e :: rest => do
    let c ← escaped? e
    let (codes, behind) ← codes? rest
    return (c.toNat :: codes, behind)
  | c :: rest =>
    if c.toNat < 0x20 then none
    else do
      let (codes, behind) ← codes? rest
      return (c.toNat :: codes, behind)

/-- Whether a code is the first half of a surrogate pair. -/
def isHigh (code : Nat) : Bool := 0xD800 ≤ code && code ≤ 0xDBFF

/-- Whether a code is the second half of a surrogate pair. -/
def isLow (code : Nat) : Bool := 0xDC00 ≤ code && code ≤ 0xDFFF

/-- The characters that codes spell, if no surrogate stands alone. -/
def chars? : List Nat → Option (List Char)
  | [] => some []
  | code :: rest =>
    if isHigh code then
      match rest with
      | low :: rest =>
        if isLow low then
          (chars? rest).map (Char.ofNat (0x10000 + (code - 0xD800) * 0x400 + (low - 0xDC00)) :: ·)
        else none
      | [] => none
    else if isLow code then none
    else (chars? rest).map (Char.ofNat code :: ·)

/-- The text of a string behind its opening quote, and what stands behind it. -/
def string? (s : List Char) : Option (Option String × List Char) := do
  let (codes, behind) ← codes? s
  return ((chars? codes).map String.ofList, behind)

/-- What stands behind at least one digit. -/
def digits? (s : List Char) : Option (List Char) :=
  if s.head?.any Char.isDigit then some (s.dropWhile Char.isDigit) else none

/-- What stands behind a fraction, which may be missing. -/
def fraction? : List Char → Option (List Char)
  | '.' :: rest => digits? rest
  | s => some s

/-- What stands behind an exponent, which may be missing. -/
def exponent? : List Char → Option (List Char)
  | c :: rest =>
    if c == 'e' || c == 'E' then
      match rest with
      | '+' :: rest | '-' :: rest => digits? rest
      | rest => digits? rest
    else some (c :: rest)
  | [] => some []

/-- What stands behind the digits of an integer: a zero stands alone. -/
def integer? : List Char → Option (List Char)
  | '0' :: rest => some rest
  | s => digits? s

/-- A number at the start of a text, and what stands behind it. -/
def number? (s : List Char) : Option (Json × List Char) := do
  let unsigned := if s.head? = some '-' then s.tail else s
  let behind ← integer? unsigned
  let last ← exponent? (← fraction? behind)
  if unsigned.length = s.length && last.length = behind.length then
    return (.natural (Decimal.value (s.take (s.length - last.length))), last)
  return (.number, last)

mutual

/-- A value at the start of a text, and what stands behind it. -/
def value? : Nat → List Char → Option (Json × List Char)
  | 0, _ => none
  | fuel + 1, s =>
    match skip s with
    | '"' :: rest => (string? rest).map fun r => (.string r.1, r.2)
    | '[' :: rest =>
      match skip rest with
      | ']' :: rest => some (.array [], rest)
      | rest => (items? fuel rest).map fun r => (.array r.1, r.2)
    | '{' :: rest =>
      match skip rest with
      | '}' :: rest => some (.object [], rest)
      | rest => (members? fuel rest).map fun r => (.object r.1, r.2)
    | 'n' :: 'u' :: 'l' :: 'l' :: rest => some (.null, rest)
    | 't' :: 'r' :: 'u' :: 'e' :: rest => some (.bool true, rest)
    | 'f' :: 'a' :: 'l' :: 's' :: 'e' :: rest => some (.bool false, rest)
    | s => number? s

/-- The items of an array up to its end, at least one. -/
def items? : Nat → List Char → Option (List Json × List Char)
  | 0, _ => none
  | fuel + 1, s => do
    let (item, behind) ← value? fuel s
    match skip behind with
    | ']' :: rest => return ([item], rest)
    | ',' :: rest => do
      let (items, behind) ← items? fuel rest
      return (item :: items, behind)
    | _ => none

/-- The members of an object up to its end, at least one. -/
def members? : Nat → List Char → Option (List (Option String × Json) × List Char)
  | 0, _ => none
  | fuel + 1, s =>
    match skip s with
    | '"' :: rest => do
      let (name, behind) ← string? rest
      match skip behind with
      | ':' :: rest => do
        let (v, behind) ← value? fuel rest
        match skip behind with
        | '}' :: rest => return ([(name, v)], rest)
        | ',' :: rest => do
          let (members, behind) ← members? fuel rest
          return ((name, v) :: members, behind)
        | _ => none
      | _ => none
    | _ => none

end

/-- The value that a text writes. Every step of the reader takes up text, so the length of the
text bounds their number. -/
def parse? (s : List Char) : Option Json := do
  let (v, behind) ← value? (2 * s.length + 2) s
  if (skip behind).isEmpty then some v else none

/-- A hexadecimal digit. -/
def hexDigit (n : Nat) : Char := "0123456789abcdef".toList.getD n '0'

/-- A character as it is written in a string. -/
def writeChar (c : Char) : List Char :=
  if c == '"' then ['\\', '"']
  else if c == '\\' then ['\\', '\\']
  else if c == '\x08' then ['\\', 'b']
  else if c == '\x0c' then ['\\', 'f']
  else if c == '\n' then ['\\', 'n']
  else if c == '\r' then ['\\', 'r']
  else if c == '\t' then ['\\', 't']
  else if c.toNat < 0x20 then
    ['\\', 'u', '0', '0', hexDigit (c.toNat / 16), hexDigit (c.toNat % 16)]
  else [c]

/-- A text as a JSON string. -/
def writeString (text : String) : List Char :=
  '"' :: text.toList.flatMap writeChar ++ ['"']

end Json

end CxxScript.Text

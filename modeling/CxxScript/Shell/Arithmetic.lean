import CxxScript.Text.Json

/-!
# Numerals and arithmetic expansion

Scripts write numbers in decimal, in hexadecimal behind `0x` and in octal behind a zero, with a sign
and blanks in front. They are reckoned with in words of 64 bits.

Integer expressions with the usual operators and precedences, on numbers of the machine's width. A
name stands for the number in the variable of that name, and an expression may assign to it; what an
expression does not need is read but not evaluated. `evaluate` gives the value together with the
assignments.
-/

set_option autoImplicit false

namespace CxxScript.Shell.Numeral

/-- The number of values of a word. -/
def wordValues : Int := 18446744073709551616

/-- The least number in a word. -/
def least : Int := -9223372036854775808

/-- The greatest number in a word. -/
def greatest : Int := 9223372036854775807

/-- The base of the numeral at the start of a text, its digits, and what stands behind them. -/
def parts (cs : List Char) : Nat × List Char × List Char :=
  let isHex (c : Char) : Bool := (Text.Json.hexValue? c).isSome
  let isOctal (c : Char) : Bool := '0' ≤ c && c ≤ '7'
  match cs with
  | '0' :: x :: d :: rest =>
    if (x == 'x' || x == 'X') && isHex d then
      (16, (d :: rest).takeWhile isHex, (d :: rest).dropWhile isHex)
    else (8, cs.takeWhile isOctal, cs.dropWhile isOctal)
  | '0' :: _ => (8, cs.takeWhile isOctal, cs.dropWhile isOctal)
  | _ => (10, cs.takeWhile Char.isDigit, cs.dropWhile Char.isDigit)

/-- The value of digits in a base. -/
def value (base : Nat) (digits : List Char) : Nat :=
  digits.foldl (fun n c => n * base + (Text.Json.hexValue? c).getD 0) 0

/-- A space, or a character that moves on like one. -/
def isBlank (c : Char) : Bool := c == ' ' || '\t' ≤ c && c ≤ '\r'

/-- The number at the start of a text, blanks and a sign in front of it, and what stands behind. -/
def leading? (cs : List Char) : Option (Int × List Char) :=
  let (sign, cs) : Int × List Char := match cs.dropWhile isBlank with
    | '-' :: cs => (-1, cs)
    | '+' :: cs => (1, cs)
    | cs => (1, cs)
  match parts cs with
  | (_, [], _) => none
  | (base, digits, behind) => some (sign * Int.ofNat (value base digits), behind)

end CxxScript.Shell.Numeral

namespace CxxScript.Shell.Arithmetic

/-- A symbol of an expression. -/
inductive Symbol where
  | number (n : Int)
  | name (text : String)
  | operator (text : String)
  deriving DecidableEq, Repr

/-- The binary operators, those that hold their operands most tightly first. -/
def levels : List (List String) := [
  ["*", "/", "%"], ["+", "-"], ["<<", ">>"], ["<", ">", "<=", ">="], ["==", "!="], ["&"], ["^"],
  ["|"]]

/-- The operators of more than one character, the longer ones first. -/
def longOperators : List String := [
  "<<=", ">>=", "||", "&&", "==", "!=", "<=", ">=", "<<", ">>", "+=", "-=", "*=", "/=", "%=", "&=",
  "^=", "|="]

/-- The number in the machine's width that a number stands for. -/
def wrap (n : Int) : Int := n.bmod Numeral.wordValues.toNat

/-- Cut an expression into symbols. -/
def symbols : Nat → List Char → List Symbol
  | 0, _ | _, [] => []
  | fuel + 1, c :: rest =>
    let isNamePart (c : Char) : Bool := c.isAlphanum || c == '_'
    let cs := c :: rest
    if c == ' ' || c == '\t' || c == '\n' then symbols fuel rest
    else if c.isDigit then
      let (base, digits, behind) := Numeral.parts cs
      .number (min (Int.ofNat (Numeral.value base digits)) Numeral.greatest) :: symbols fuel behind
    else if isNamePart c then
      .name (String.ofList (cs.takeWhile isNamePart)) :: symbols fuel (cs.dropWhile isNamePart)
    else
      match longOperators.find? fun o => o.toList.isPrefixOf cs with
      | some long => .operator long :: symbols fuel (cs.drop long.length)
      | none => .operator c.toString :: symbols fuel rest

/-- The number that the text of a variable stands for, if it stands for one of the machine's
width. -/
def ofText? (text : String) : Option Int :=
  match Numeral.leading? text.toList with
  | some (n, behind) => if behind.all Numeral.isBlank && n = wrap n then some n else none
  | none => if text.toList.all Numeral.isBlank then some 0 else none

/-- The value of an operator on the bits of two numbers of the machine's width. -/
def onBits (f : Int64 → Int64 → Int64) (a b : Int) : Int := (f (.ofInt a) (.ofInt b)).toInt

/-- One for true and zero for false. -/
def truth (b : Bool) : Int := if b then 1 else 0

/-- What is wrong with an expression. -/
inductive Fault where
  | expecting (what : String)
  | divisionByZero
  | notANumber (text : String)
  deriving DecidableEq, Repr

/-- The text of a complaint about an expression. -/
def Fault.message (expression : String) : Fault → String
  | .expecting what => s!"arithmetic expression: expecting {what}: \"{expression}\""
  | .divisionByZero => s!"arithmetic expression: division by zero: \"{expression}\""
  | .notANumber text => s!"Illegal number: {text}"

/-- The value of a binary operator. -/
def apply (operator : String) (a b : Int) : Except Fault Int :=
  match operator with
  | "+" => return wrap (a + b)
  | "-" => return wrap (a - b)
  | "*" => return wrap (a * b)
  | "/" => if b = 0 then .error .divisionByZero else return wrap (a.tdiv b)
  | "%" => if b = 0 then .error .divisionByZero else return wrap (a.tmod b)
  | "<" => return truth (a < b)
  | ">" => return truth (a > b)
  | "<=" => return truth (a ≤ b)
  | ">=" => return truth (a ≥ b)
  | "==" => return truth (a = b)
  | "!=" => return truth (a ≠ b)
  | "|" => return onBits (· ||| ·) a b
  | "^" => return onBits (· ^^^ ·) a b
  | "&" => return onBits (· &&& ·) a b
  | "<<" => return onBits (· <<< ·) a b
  | _ => return onBits (· >>> ·) a b

/-- An expression under evaluation: the symbols that are left, and what has been assigned, the
latest first. -/
structure Progress where
  rest : List Symbol
  assigned : List (String × Int) := []

/-- A value that is worked out on the way through an expression. -/
abbrev Reckoning := StateT Progress (Except Fault)

/-- The next symbol, if it is one of some operators, which is then taken off. -/
def take? (operators : List String) : Reckoning (Option String) := do
  match (← get).rest with
  | .operator text :: rest =>
    if operators.contains text then
      modify fun p => { p with rest }
      return some text
    else return none
  | _ => return none

/-- Insist on an operator. -/
def expect (text : String) : Reckoning Unit := do
  if (← take? [text]).isNone then throw (.expecting s!"'{text}'")

/-- The number in a variable, where `value` gives the texts of the variables. -/
def lookUp (value : String → String) (name : String) : Reckoning Int := do
  match (← get).assigned.lookup name, ofText? (value name) with
  | some n, _ | none, some n => return n
  | none, none => throw (.notANumber (value name))

/-- Note an assignment, unless it is skipped. -/
def assign (skipped : Bool) (name : String) (n : Int) : Reckoning Int := do
  if !skipped then modify fun p => { p with assigned := (name, n) :: p.assigned }
  return n

/-- The operator that an assignment applies first: none for a plain one. -/
def assigning? (text : String) : Option (Option String) :=
  if text = "=" then some none
  else if longOperators.contains text && text.endsWith "=" &&
      !(["==", "!=", "<=", ">="].contains text) then
    some (some (text.dropEnd 1).toString)
  else none

mutual

/-- Evaluate an operand. What is skipped is only read. -/
def operand (value : String → String) (skipped : Bool) : Nat → Reckoning Int
  | 0 => throw (.expecting "primary")
  | fuel + 1 => do
    match (← get).rest with
    | .number n :: rest =>
      modify fun p => { p with rest }
      return n
    | .name text :: rest =>
      modify fun p => { p with rest }
      if skipped then return 0 else lookUp value text
    | _ =>
      match ← take? ["-", "+", "!", "~", "("] with
      | some "-" => return wrap (-(← operand value skipped fuel))
      | some "+" => operand value skipped fuel
      | some "!" => return truth ((← operand value skipped fuel) = 0)
      | some "~" => return -(← operand value skipped fuel) - 1
      | some _ =>
        let n ← assignment value skipped fuel
        expect ")"
        return n
      | none => throw (.expecting "primary")

/-- Evaluate operations of some levels, given those that hold less tightly first. -/
def operations (value : String → String) (skipped : Bool) :
    Nat → List (List String) → Reckoning Int
  | 0, _ => throw (.expecting "primary")
  | fuel + 1, [] => operand value skipped fuel
  | fuel + 1, level :: tighter => do
    operationsFrom value skipped fuel level tighter (← operations value skipped fuel tighter)

/-- Go on behind the first operand of a level, from the left. -/
def operationsFrom (value : String → String) (skipped : Bool) :
    Nat → List String → List (List String) → Int → Reckoning Int
  | 0, _, _, _ => throw (.expecting "primary")
  | fuel + 1, level, tighter, first => do
    match ← take? level with
    | some operator =>
      let second ← operations value skipped fuel tighter
      let n ← if skipped then pure second else apply operator first second
      operationsFrom value skipped fuel level tighter n
    | none => return first

/-- Evaluate what `&&` joins: behind a zero the rest is skipped. -/
def conjunction (value : String → String) (skipped : Bool) : Nat → Reckoning Int
  | 0 => throw (.expecting "primary")
  | fuel + 1 => do
    let a ← operations value skipped fuel levels.reverse
    match ← take? ["&&"] with
    | some _ =>
      let b ← conjunction value (skipped || a = 0) fuel
      return truth (a ≠ 0 && b ≠ 0)
    | none => return a

/-- Evaluate what `||` joins: behind anything but a zero the rest is skipped. -/
def disjunction (value : String → String) (skipped : Bool) : Nat → Reckoning Int
  | 0 => throw (.expecting "primary")
  | fuel + 1 => do
    let a ← conjunction value skipped fuel
    match ← take? ["||"] with
    | some _ =>
      let b ← disjunction value (skipped || a ≠ 0) fuel
      return truth (a ≠ 0 || b ≠ 0)
    | none => return a

/-- Evaluate a condition and the side of it that counts. -/
def choice (value : String → String) (skipped : Bool) : Nat → Reckoning Int
  | 0 => throw (.expecting "primary")
  | fuel + 1 => do
    let a ← disjunction value skipped fuel
    match ← take? ["?"] with
    | some _ =>
      let yes ← assignment value (skipped || a = 0) fuel
      expect ":"
      let no ← choice value (skipped || a ≠ 0) fuel
      return if a = 0 then no else yes
    | none => return a

/-- Evaluate an assignment, or an expression without one. -/
def assignment (value : String → String) (skipped : Bool) : Nat → Reckoning Int
  | 0 => throw (.expecting "primary")
  | fuel + 1 => do
    match (← get).rest with
    | .name name :: .operator text :: rest =>
      match assigning? text with
      | none => choice value skipped fuel
      | some first =>
        modify fun p => { p with rest }
        let n ← assignment value skipped fuel
        match skipped, first with
        | true, _ | _, none => assign skipped name n
        | _, some operator => assign skipped name (← apply operator (← lookUp value name) n)
    | _ => choice value skipped fuel

end

/-- What has come out of an expression: its value, and its assignments, the latest first. -/
structure Evaluated where
  value : Int
  assigned : List (String × Int)

/-- Evaluate an expression, given the texts of the variables. -/
def evaluate (value : String → String) (text : String) : Except String Evaluated :=
  let all := symbols text.length text.toList
  match (assignment value false (16 * all.length + 32)).run { rest := all } with
  | .ok (n, p) =>
    if p.rest.isEmpty then .ok { value := n, assigned := p.assigned }
    else .error ((Fault.expecting "EOF").message text)
  | .error fault => .error (fault.message text)

end CxxScript.Shell.Arithmetic

import CxxScript.Text.Utf8

/-!
# Names in complaints

How the utilities show a name, so that what they write can be read, and mostly pasted into a script
again: between quotes, with everything that is no printable ASCII character spelled out.
-/

set_option autoImplicit false

namespace CxxScript.Shell.Quoted

/-- A byte as a backslash and three octal digits. -/
def octal (b : UInt8) : List Char :=
  let digit (n : Nat) : Char := Char.ofNat ('0'.toNat + n % 8)
  ['\\', digit (b.toNat / 64), digit (b.toNat / 8), digit b.toNat]

/-- The way a character is spelled out if it is not shown as it is. -/
def spelled? (c : Char) : Option (List Char) :=
  match c with
  | '\x07' => some ['\\', 'a']
  | '\x08' => some ['\\', 'b']
  | '\t' => some ['\\', 't']
  | '\n' => some ['\\', 'n']
  | '\x0b' => some ['\\', 'v']
  | '\x0c' => some ['\\', 'f']
  | '\r' => some ['\\', 'r']
  | c =>
    if ' ' ≤ c && c ≤ '~' then none
    else some ((Text.Utf8.encode c.toString).flatMap octal)

/-- The characters that mean something to a shell, wherever they stand. -/
def special : List Char := " !\"$&'()*;<=>?[\\^`|".toList

/-- The characters that mean something at the start of a word. -/
def specialFirst : List Char := ['#', '~']

/-- What stands between single quotes for a name. A single quote is put outside of them behind a
backslash; what has to be spelled out stands between quotes of its own, and the flag tells whether
those are open. -/
def body : List Char → (isOpen : Bool) → List Char
  | [], _ => []
  | c :: rest, isOpen =>
    match spelled? c with
    | some text => (if isOpen then [] else ['\'', '$', '\'']) ++ text ++ body rest true
    | none =>
      if c = '\'' then ['\'', '\\', '\'', '\''] ++ body rest false
      else (if isOpen then ['\'', '\''] else []) ++ c :: body rest false

/-- Whether double quotes do for a name: it holds a single quote, and nothing that means something
between double ones. -/
def isDoubled (name : List Char) : Bool :=
  let isHarmless (c : Char) : Bool := c.isAlphanum || " '%+,-./:]_@".toList.contains c
  name.contains '\'' && name.tail.all isHarmless &&
    name.head?.all fun c => isHarmless c || specialFirst.contains c

/-- A name between quotes. One that holds a single quote and ends in something spelled out starts
as if the quotes for that were open already. -/
def quoted (name : String) : String :=
  let isOpen := name.contains '\'' && name.toList.getLast?.any fun c => (spelled? c).isSome
  if isDoubled name.toList then "\"" ++ name ++ "\""
  else "'" ++ String.ofList (body name.toList isOpen) ++ "'"

/-- Whether a name can be shown without quotes, also in front of a colon. -/
def isPlain (name : List Char) : Bool :=
  let isOrdinary (c : Char) : Bool := (spelled? c).isNone && !special.contains c && c != ':'
  !name.isEmpty && name.all isOrdinary && name != ['\x7b'] && name != ['\x7d'] &&
    name.head?.all fun c => !specialFirst.contains c

/-- A name, between quotes if it needs them. -/
def shown (name : String) : String := if isPlain name.toList then name else quoted name

/-- A name between single quotes in which quotes and backslashes stand behind a backslash. -/
def escaped (name : String) : String :=
  let text := name.toList.flatMap fun c =>
    if c = '\'' || c = '\\' then ['\\', c] else (spelled? c).getD [c]
  "'" ++ String.ofList text ++ "'"

end CxxScript.Shell.Quoted

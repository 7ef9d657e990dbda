import CxxScript.Text.Utf8

/-!
# The first line of a script

A file that begins with `#!` is no program itself: its first line names the interpreter that reads
it, and after a gap one argument for it. The system looks at the start of the file only, so a line
that goes on beyond it is cut there, and it refuses one whose interpreter might be cut.
-/

set_option autoImplicit false

namespace CxxScript.Shell

/-- The interpreter of a script and its argument, if there is one. -/
structure FirstLine where
  interpreter : String
  argument : Option String
  deriving DecidableEq, Repr

namespace FirstLine

/-- How many bytes of a file the system looks at. -/
def headBytes : Nat := 256

/-- A space or a tab. -/
def isGap (b : UInt8) : Bool := b == 0x20 || b == 0x09

/-- What ends the name of the interpreter. -/
def endsName (b : UInt8) : Bool := isGap b || b == 0

/-- The line behind the mark, given the bytes there. Without a line feed the end of the name has
to be there at least, and the last byte is not looked at. -/
def line? (rest : Bytes) : Option Bytes :=
  if rest.contains 0x0a then some (rest.takeWhile (· ≠ 0x0a))
  else if (rest.dropWhile isGap).any endsName then some rest.dropLast
  else none

/-- What the start of a file says about its interpreter. A file that is shorter than what the
system looks at is filled up with zeros. -/
def ofContent? (content : Bytes) : Option FirstLine :=
  let head := content.take headBytes
  match head ++ List.replicate (headBytes - head.length) 0 with
  | 0x23 :: 0x21 :: rest =>
    match (line? rest).map fun line =>
      ((line.reverse.dropWhile isGap).reverse).dropWhile isGap with
    | none | some [] => none
    | some line =>
      let name := line.takeWhile fun b => !endsName b
      let argument := match line.drop name.length with
        | [] => none
        | b :: behind =>
          if b = 0 then none
          else some (Text.Utf8.decodeLossy ((behind.dropWhile isGap).takeWhile (· ≠ 0)))
      some { interpreter := Text.Utf8.decodeLossy name, argument }
  | _ => none

end FirstLine

end CxxScript.Shell

import CxxScript.Path.Basic
import CxxScript.Text.Blank
import CxxScript.Text.Utf8

/-!
# The processed copy

A copy is written only where a line begins with `#!`, which no compiler accepts: such a line is
made a comment by two slashes. Everything else is copied byte for byte behind one `#line` line, so
a compiler still reports the places of the file that the user wrote.
-/

set_option autoImplicit false

namespace CxxScript.Source

/-- The lines of a file with their line feeds. -/
def rawLines (content : Bytes) : List Bytes := Text.splitAfter (· == 0x0A) content

/-- A space or a tab. -/
def isGapByte (b : UInt8) : Bool := b == 0x20 || b == 0x09

/-- Whether a line begins, gaps aside, with `#!`. -/
def isInterpreterLine (line : Bytes) : Bool :=
  match line.dropWhile isGapByte with
  | 0x23 :: 0x21 :: _ => true
  | _ => false

/-- The line as a compiler can read it: two slashes go before a `#!` that begins it. -/
def defuse (line : Bytes) : Bytes :=
  if isInterpreterLine line then
    line.takeWhile isGapByte ++ 0x2F :: 0x2F :: line.dropWhile isGapByte
  else line

/-- Only an interpreter line is changed. -/
theorem defuse_eq_self_iff (line : Bytes) :
    defuse line = line ↔ isInterpreterLine line = false := by
  constructor
  · intro h
    by_cases hi : isInterpreterLine line = true
    · have := congrArg List.length h
      have split := congrArg List.length
        (List.takeWhile_append_dropWhile (p := isGapByte) (l := line))
      simp only [defuse, hi, if_true, List.length_append, List.length_cons] at this split
      omega
    · simpa using hi
  · intro h
    simp [defuse, h]

/-- A character of a name between double quotes, as a compiler reads it. -/
def escapeChar (c : Char) : List Char :=
  if c == '\\' || c == '"' then ['\\', c] else [c]

/-- The line that names the file from which a copy was made. -/
def lineMarker (p : Path) : String :=
  "#line 1 \"" ++ String.ofList (p.text.toList.flatMap escapeChar) ++ "\"\n"

/-- Whether a file needs a copy. -/
def needsCopy (content : Bytes) : Bool := (rawLines content).any isInterpreterLine

/-- The processed copy of a file. -/
def copyOf (p : Path) (content : Bytes) : Bytes :=
  Text.Utf8.encode (lineMarker p) ++ (rawLines content).flatMap defuse

/-- A line as it is searched for directives: made readable for a compiler, without its line feed,
and decoded. -/
def readableLine (line : Bytes) : List Char :=
  let line := defuse line
  let body := if line.getLast? == some 0x0A then line.dropLast else line
  (Text.Utf8.decodeLossy body).toList

end CxxScript.Source

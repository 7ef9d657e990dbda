import CxxScript.Path.Basic
import CxxScript.Text.Blank

/-!
# Diagnostics

Reports about a source file, written the way native compilers write them so that editors can jump
to the place: `path:line:column: error: message`, with indented notes below.
-/

set_option autoImplicit false

namespace CxxScript.Source

/-- A line and a column, both counted from one; columns count characters. -/
structure Position where
  line : Nat
  column : Nat
  deriving DecidableEq, Repr

namespace Position

/-- The number of characters that the first `offset` bytes of a text hold, where the text can be
cut there. -/
def charsBefore? : List Char → Nat → Option Nat
  | _, 0 => some 0
  | [], _ + 1 => none
  | c :: rest, offset =>
    if c.utf8Size ≤ offset then (charsBefore? rest (offset - c.utf8Size)).map (· + 1) else none

/-- The position `offset` bytes into the line with index `line`; an offset inside a character or
beyond the end counts as it is. -/
def ofOffset (line : Nat) (text : String) (offset : Nat) : Position :=
  ⟨line + 1, (charsBefore? text.toList offset).getD offset + 1⟩

/-- How a position is written. -/
def text (p : Position) : String := s!"{p.line}:{p.column}"

end Position

/-- Whether the source file is at fault or a tool that was asked about it. -/
inductive Severity where
  | error
  | internalError
  deriving DecidableEq, Repr

/-- How a severity is written. -/
def Severity.label : Severity → String
  | .error => "error"
  | .internalError => "internal error"

/-- One report about a source file. -/
structure Diagnostic where
  severity : Severity
  path : Path
  position : Position
  message : String
  notes : List String := []
  deriving DecidableEq, Repr

namespace Diagnostic

/-- Add a note without its trailing blanks; a blank note is dropped. -/
def withNote (d : Diagnostic) (note : String) : Diagnostic :=
  match Text.trimEnd note.toList with
  | [] => d
  | kept => { d with notes := d.notes ++ [String.ofList kept] }

/-- The lines of a note, each on a line of its own and indented. -/
def noteText (note : String) : String :=
  String.join ((Text.lines note.toList).map fun line => "\n     " ++ String.ofList line)

/-- The whole report. -/
def text (d : Diagnostic) : String :=
  s!"{d.path.text}:{d.position.text}: {d.severity.label}: {d.message}" ++
    String.join (d.notes.map noteText)

end Diagnostic

end CxxScript.Source

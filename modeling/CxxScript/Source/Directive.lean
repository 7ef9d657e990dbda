import CxxScript.Text.Blank

/-!
# Directives

A directive follows the marker `//#!` on a line. Being a comment, it is invisible to the compiler.
A marker inside a string literal is none: it counts only behind an even number of quotes that no
backslash takes. An interpreter line, `#!` at the start of a line, is read as the comment it is
turned into in the processed copy.
-/

set_option autoImplicit false

namespace CxxScript.Source

/-- What begins a directive. -/
def marker : List Char := "//#!".toList

/-- The number of double quotes in a text that no backslash takes. -/
def unescapedQuotes : List Char → Nat
  | [] => 0
  | '\\' :: _ :: rest => unescapedQuotes rest
  | '"' :: rest => unescapedQuotes rest + 1
  | _ :: rest => unescapedQuotes rest

/-- The places, counted in characters, at which a marker stands. -/
def markerPlaces (line : List Char) : List Nat :=
  (List.range line.length).filter fun place => marker.isPrefixOf (line.drop place)

/-- The first place of a marker outside string literals. -/
def findMarker? (line : List Char) : Option Nat :=
  (markerPlaces line).find? fun place => unescapedQuotes (line.take place) % 2 == 0

/-- What follows the marker on a line. -/
inductive Directive where
  | flags (text : String)
  | keyValue (name value : String)
  | interpreter
  | unknown (text : String)
  deriving DecidableEq, Repr

namespace Directive

/-- A character of a key. -/
def isKeyChar (c : Char) : Bool := c.isAlpha || c == '_'

/-- A key, gaps, a colon, gaps and a value on one line: the key and the value. -/
def keyValue? (text : List Char) : Option (List Char × List Char) :=
  match (text.dropWhile isKeyChar).dropWhile Text.isGap with
  | ':' :: rest =>
    let value := rest.dropWhile Text.isGap
    if value.contains '\n' then none else some (text.takeWhile isKeyChar, value)
  | _ => none

/-- Read the text behind the marker: flags begin with a dash, a key is followed by a colon, and a
slash is left over from an interpreter line. -/
def parse (rest : List Char) : Directive :=
  let text := rest.dropWhile Text.isGap
  if text.head? = some '-' then .flags (String.ofList text)
  else match keyValue? text with
    | some (key, value) => .keyValue (String.ofList key) (String.ofList (Text.trimEnd value))
    | none =>
      if text.head? = some '/' then .interpreter
      else .unknown (String.ofList (Text.trimEnd text))

end Directive

end CxxScript.Source

import CxxScript.Shell.Arithmetic
import CxxScript.Shell.Listing
import CxxScript.Shell.State

/-!
# Expanding words

Parameters and arithmetic are replaced by their values and commands by their output, what they leave
unquoted is split into fields, file name patterns become the names that fit them, and the quotes go.
`flat` expands where no splitting takes place, `fields` where it does. Expanding may set variables,
and it may fail; how a command is run is left to a `Collector`.
-/

set_option autoImplicit false

namespace CxxScript.Shell

/-- A way to run a text, whose first line has a number, in a copy of the shell and to give what it
writes, without the line feeds at its end. -/
abbrev Collector := Nat → List Char → StateM State (List Char)

/-- An expansion on the way: it changes the shell, and a complaint may end it. -/
abbrev Expanding := ExceptT String (StateM State)

namespace State

/-- A word with the home directory in place of a tilde that stands alone at its start. -/
def fromHome (st : State) (w : Word) : Word :=
  match w, st.bindings.lookup "HOME" with
  | .text false ('~' :: chars) :: rest, some home =>
    let alone := match chars, rest with
      | '/' :: _, _ | [], [] => true
      | _, _ => false
    if alone && !home.isEmpty then .text true home.toList :: .text false chars :: rest else w
  | _, _ => w

end State

/-- Set a variable on the way. -/
def assignOnTheWay (name value : String) : Expanding Unit := do
  set (← ((← get).tryAssign name value : Except String State))

/-- The value of a parameter, which may have to be set. -/
def valueOf (name : String) : Expanding (List Char) := do
  let st ← get
  match st.parameter? name with
  | some text => return text.toList
  | none =>
    if st.has Switch.insisting && name ≠ "@" && name ≠ "*" then
      throw s!"{name}: parameter not set"
    else return []

/-- The complaint about a parameter that is missing but insisted on. -/
def missingText (name : String) (whenEmpty : Bool) (operand : Marked) : String :=
  let message :=
    if !operand.isEmpty then operand.text
    else if whenEmpty then "parameter not set or null" else "parameter not set"
  s!"{name}: {message}"

mutual

/-- Expand one part without splitting it. -/
def flatPart (run : Collector) : Part → Expanding Marked
  | .text quoted chars => return .ofChars quoted chars
  | .param quoted name use operand => do
    match use with
    | .value => return .ofChars quoted (← valueOf name)
    | .length => return .ofChars quoted (toString (← valueOf name).length).toList
    | .orElse whenEmpty =>
      if (← get).isMissing name whenEmpty then flat run operand
      else return .ofChars quoted (← valueOf name)
    | .orAssign whenEmpty =>
      if (← get).isMissing name whenEmpty then
        assignOnTheWay name (← flat run operand).text
      return .ofChars quoted (← valueOf name)
    | .orComplain whenEmpty =>
      if (← get).isMissing name whenEmpty then
        throw (missingText name whenEmpty (← flat run operand))
      else return .ofChars quoted (← valueOf name)
    | .ifSet whenEmpty =>
      if (← get).isMissing name whenEmpty then return [] else flat run operand
    | .cut atEnd longest =>
      let value ← valueOf name
      let pattern ← flat run operand
      return .ofChars quoted
        (if atEnd then pattern.cutEnd longest value else pattern.cutStart longest value)
  | .arithmetic quoted expression => do
    let text := (← flat run expression).text
    let st ← get
    let found ← (Arithmetic.evaluate (fun name => (st.parameter? name).getD "") text :
      Except String Arithmetic.Evaluated)
    found.assigned.reverse.forM fun a => assignOnTheWay a.1 (toString a.2)
    return .ofChars quoted (toString found.value).toList
  | .command quoted line source => return .ofChars quoted (← run line source)
  | .unreadable => throw "Bad substitution"

/-- Expand a word without splitting it. -/
def flat (run : Collector) : List Part → Expanding Marked
  | [] => return []
  | part :: rest => do
    let first ← flatPart run part
    return first ++ (← flat run rest)

end

/-- The text of a word that is not split. -/
def textOf (run : Collector) (w : Word) : Expanding String := do
  return (← flat run ((← get).fromHome w)).text

/-- Fields under construction: the finished ones and the one at hand, latest first, whether there is
one at hand at all, and whether a blank has just ended one, so that a separator behind it belongs to
the same gap. -/
structure Fields where
  done : List Marked := []
  current : Marked := []
  active : Bool := false
  afterBlank : Bool := false

namespace Fields

/-- End the field at hand. -/
def close (f : Fields) : Fields :=
  if f.active then { done := f.current.reverse :: f.done } else { done := f.done }

/-- Add text to the field at hand, which is there from then on. -/
def add (f : Fields) (m : Marked) : Fields :=
  { done := f.done, current := m.reverse ++ f.current, active := true }

/-- Add a character that is split off where it is one of the gaps and not quoted. Blanks count as
one gap, any other character of the gaps as one of its own. -/
def addChar (gaps : List Char) (f : Fields) (c : Char × Bool) : Fields :=
  if c.2 || !gaps.contains c.1 then f.add [c]
  else if " \t\n".toList.contains c.1 then
    if f.active then { f.close with afterBlank := true } else f
  else if f.afterBlank then { f with afterBlank := false }
  else { done := f.current.reverse :: f.done }

/-- Add text that is split at the gaps in it that are not quoted. -/
def addSplit (gaps : List Char) (f : Fields) (m : Marked) : Fields := m.foldl (addChar gaps) f

/-- Add each text as a field of its own, the first one to the field at hand. -/
def addEach (f : Fields) (add : Fields → List Char → Fields) : List String → Fields
  | [] => f
  | [last] => add f last.toList
  | text :: rest => addEach (add f text.toList).close add rest

/-- The finished fields in order. -/
def all (f : Fields) : List Marked := f.close.done.reverse

end Fields

mutual

/-- Expand one part into the fields at hand. What stands in a word itself is not split, but what
stands in the operand of a parameter is. -/
def addPart (run : Collector) (inOperand : Bool) (f : Fields) : Part → Expanding Fields
  | .text true chars => return f.add (.ofChars true chars)
  | .text false chars => do
    if inOperand then return f.addSplit (← get).gaps (.ofChars false chars)
    else return if chars.isEmpty then f else f.add (.ofChars false chars)
  | .param quoted name use operand => do
    let st ← get
    let split (f : Fields) (cs : List Char) : Fields := f.addSplit st.gaps (.ofChars false cs)
    match quoted, name, use with
    | true, "@", .value => return f.addEach (fun f cs => f.add (.ofChars true cs)) st.params
    | false, "@", .value | false, "*", .value => return f.addEach split st.params
    | false, _, .orElse whenEmpty =>
      if st.isMissing name whenEmpty then addParts run true f operand
      else return split f (← valueOf name)
    | false, _, .ifSet whenEmpty =>
      if st.isMissing name whenEmpty then return f else addParts run true f operand
    | false, _, _ => return f.addSplit st.gaps (← flatPart run (.param quoted name use operand))
    | true, _, _ => return f.add (← flatPart run (.param quoted name use operand))
  | .arithmetic quoted expression => do
    let m ← flatPart run (.arithmetic quoted expression)
    let gaps := (← get).gaps
    return if quoted then f.add m else f.addSplit gaps m
  | .command quoted line source => do
    let chars ← run line source
    let gaps := (← get).gaps
    return if quoted then f.add (.ofChars true chars) else f.addSplit gaps (.ofChars false chars)
  | .unreadable => throw "Bad substitution"

/-- Expand parts into the fields at hand. -/
def addParts (run : Collector) (inOperand : Bool) (f : Fields) : List Part → Expanding Fields
  | [] => return f
  | part :: rest => do addParts run inOperand (← addPart run inOperand f part) rest

end

/-- Expand a word into fields. -/
def fields (run : Collector) (w : Word) : Expanding (List String) := do
  let found := (← addParts run false {} ((← get).fromHome w)).all
  let st ← get
  return found.flatMap fun m =>
    if st.has Switch.literalPaths then [m.text] else m.listed st.files st.cwd

/-- Expand words into fields, one word after the other. -/
def allFields (run : Collector) : List Word → Expanding (List String)
  | [] => return []
  | w :: rest => do
    let first ← fields run w
    return first ++ (← allFields run rest)

/-- Expand the targets of redirections. -/
def targets (run : Collector) : List (Redirect Word) → Expanding (List (Redirect String))
  | [] => return []
  | r :: rest => do
    let target ← textOf run r.target
    let first : Redirect String := { descriptor := r.descriptor, mode := r.mode, target }
    return first :: (← targets run rest)

end CxxScript.Shell

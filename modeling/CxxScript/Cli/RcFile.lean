import CxxScript.Build.Placement
import CxxScript.Cli.Options

/-!
# Options kept in a file

The file holds one option a line, with or without the start that all options share. Blank lines and
comments are passed over. A line that is no option is reported by its number and otherwise ignored,
so what the file holds never makes a command line fail.
-/

set_option autoImplicit false

namespace CxxScript.Cli

/-- The options of a file, and the reports on lines that hold none. -/
structure RcFile where
  options : List String := []
  warnings : List String := []
  deriving DecidableEq, Repr

/-- A file that is there but cannot be read. -/
structure RcError where
  path : Path
  cause : IoError
  deriving DecidableEq, Repr

/-- The text of a file error. -/
def RcError.message (e : RcError) : String :=
  s!"failed to read {e.path.text}: {e.cause.message}"

namespace RcFile

/-- The option that a line stands for. -/
def optionOf (line : String) : String :=
  withEquals <|
    if startsWith line optionStart then line
    else if startsWith line "hbcxx-" then "--" ++ line
    else optionStart ++ line

/-- Take in the line with index `index`. -/
def add (path : Path) (rc : RcFile) (index : Nat) (raw : List Char) : RcFile :=
  let line := Text.trim raw
  if line.isEmpty || line.head? = some '#' then rc
  else
    let text := String.ofList line
    match Options.parse [optionOf text] with
    | .ok _ => { rc with options := rc.options ++ [optionOf text] }
    | .error _ =>
      { rc with warnings := rc.warnings ++ [s!"{path.text}:{index + 1}: bad option: {text}"] }

/-- Take in lines from the one with index `index` on. -/
def addLines (path : Path) : Nat → List (List Char) → RcFile → RcFile
  | _, [], rc => rc
  | index, raw :: rest, rc => addLines path (index + 1) rest (rc.add path index raw)

/-- The options of a text. -/
def parse (path : Path) (text : String) : RcFile := addLines path 0 (Text.lines text.toList) {}

/-- The options of the file at a path; a missing file has none. -/
def load (m : Machine) (h : Host) (path : Path) : Except RcError RcFile :=
  match h.files.readText m.cwd path with
  | .ok text => .ok (parse path text)
  | .error cause => if cause = .system .noEntry then .ok {} else .error ⟨path, cause⟩

/-- The environment variable that names the file. -/
def placeVariable : String := "HBCXXRC"

/-- Where the file stands: where the environment says, else in the home directory. -/
def place? (m : Machine) : Option Path :=
  match m.setting? placeVariable with
  | some path => some ⟨path⟩
  | none => m.home?.map fun home => (⟨home⟩ : Path).join ⟨".hbcxxrc"⟩

end RcFile

end CxxScript.Cli

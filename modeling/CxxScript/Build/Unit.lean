import CxxScript.Build.Config
import CxxScript.Build.Placement

/-!
# Compilation units

A unit is one file together with everything that is derived from it: its flags, and the processed
copy, the object and the executable, each at a place that is chosen on first use and then kept.
Every derived name carries the token of the run, so that runs do not meet and no file of the user's
is taken for one of the tool's. Two units are the same file when their identities agree, however
their paths are spelled.
-/

set_option autoImplicit false

namespace CxxScript

/-- The tool's own name. -/
def toolName : String := "hbcxx"

/-- What a unit is for: a source is compiled and linked, a header is only read. -/
inductive UnitKind where
  | source
  | header
  deriving DecidableEq, Repr

/-- Why a unit could not give what was asked of it. -/
inductive UnitError where
  | headerNotCompiled (path : Path)
  | location (cause : PlacementError)
  | io (path : Path) (cause : IoError)
  deriving DecidableEq, Repr

/-- The text of a unit error. -/
def UnitError.message : UnitError → String
  | .headerNotCompiled path => s!"{path.text}: header files cannot be rewritten or compiled"
  | .location cause => cause.message
  | .io path cause => s!"failed to open {path.text}: {cause.message}"

/-- A file and what is derived from it. -/
structure CompilationUnit where
  path : Path
  identity : Path
  kind : UnitKind
  /-- Where the processed copy stands or will stand. -/
  copy : Path
  /-- Whether the processed copy has been written. -/
  copied : Bool := false
  object? : Option Path := none
  executable? : Option Path := none
  /-- Flags for every command of the build. -/
  flags : List String := []
  /-- Flags for the compilation of this unit alone. -/
  privateFlags : List String := []
  /-- Whether the unit's file has been read for directives. -/
  scanned : Bool := false
  deriving DecidableEq, Repr

namespace CompilationUnit

/-- What the extension of a source file may be, in the order in which they are tried. -/
def sourceExtensions : List String := ["cpp", "c++", "C", "cc", "c"]

/-- The token of a run, by its process number. -/
def token (pid : Nat) : String := s!"-{toolName}-{pid}"

/-- The name of the processed copy: the token goes before a source extension, and with a source
extension behind it to the end of any other name. -/
def copyPath (pid : Nat) (p : Path) : Path :=
  match p.stem?, p.extension? with
  | some stem, some extension =>
    if sourceExtensions.contains extension then
      p.withFileName (stem ++ token pid ++ "." ++ extension)
    else ⟨p.text ++ token pid ++ ".cpp"⟩
  | _, _ => ⟨p.text ++ token pid ++ ".cpp"⟩

/-- The unit for a file. -/
def ofPath (m : Machine) (h : Host) (kind : UnitKind) (p : Path) : CompilationUnit where
  path := p.normalize
  identity := h.identity m p.normalize
  kind
  copy := copyPath m.pid p.normalize

/-- Whether two units are the same file. -/
def same (a b : CompilationUnit) : Bool := a.identity == b.identity

/-- Whether the unit is a header. -/
def isHeader (u : CompilationUnit) : Bool := u.kind == .header

/-- The file that a compiler is given: the processed copy if there is one. -/
def processedPath (u : CompilationUnit) : Path := if u.copied then u.copy else u.path

/-- Add flags for the whole build unless they are there already, and say whether they were
added. -/
def pushFlags (u : CompilationUnit) (run : List String) : Bool × CompilationUnit :=
  let (flags, added) := Flags.pushUnique u.flags run
  (added, { u with flags })

/-- Add flags for this unit alone unless they are there already, and say whether they were
added. -/
def pushPrivateFlags (u : CompilationUnit) (run : List String) : Bool × CompilationUnit :=
  let (privateFlags, added) := Flags.pushUnique u.privateFlags run
  (added, { u with privateFlags })

/-- Add the flags that a text spells. -/
def pushFlagText (u : CompilationUnit) (text : String) : Bool × CompilationUnit :=
  u.pushFlags (Text.Words.split text)

/-- Add the private flags that a text spells. -/
def pushPrivateFlagText (u : CompilationUnit) (text : String) : Bool × CompilationUnit :=
  u.pushPrivateFlags (Text.Words.split text)

/-- The directory of the unit's file, as it is written in a flag. -/
def directoryText (u : CompilationUnit) : String :=
  match u.path.parent? with
  | some dir => if dir.text.isEmpty then "." else dir.text
  | none => "."

/-- The unit after a place was found for its copy. A relocated copy would no longer find the
headers beside the unit's own file, so the directory of that file becomes a private flag. -/
def withCopyAt (u : CompilationUnit) (place : Placement) : CompilationUnit :=
  if place.relocated then
    let u := (u.pushPrivateFlags [s!"-iquote{u.directoryText}"]).2
    { u with copy := place.path, copied := true }
  else { u with copied := true }

/-- Open the processed copy, to be written from its start. -/
def openCopy (m : Machine) (cfg : Config) (u : CompilationUnit) :
    StateM Host (Except UnitError Location × CompilationUnit) := do
  if u.isHeader then return (.error (.headerNotCompiled u.path), u)
  match ← Placement.find m cfg.cacheRoot u.copy with
  | .error cause => return (.error (.location cause), u)
  | .ok place =>
    let u := u.withCopyAt place
    return ((← Host.create m u.copy).mapError (.io u.copy), u)

/-- Write the processed copy. -/
def writeCopy (m : Machine) (cfg : Config) (u : CompilationUnit) (content : Bytes) :
    StateM Host (Except UnitError Unit × CompilationUnit) := do
  match ← u.openCopy m cfg with
  | (.error e, u) => return (.error e, u)
  | (.ok at_, u) => return ((← Host.append at_ content).mapError (.io u.copy), u)

/-- The place of the unit's object, found on first use. -/
def object (m : Machine) (cfg : Config) (u : CompilationUnit) :
    StateM Host (Except UnitError Path × CompilationUnit) := do
  if u.isHeader then return (.error (.headerNotCompiled u.path), u)
  match u.object? with
  | some path => return (.ok path, u)
  | none =>
    match ← Placement.find m cfg.cacheRoot (u.copy.withExtension "o") with
    | .error cause => return (.error (.location cause), u)
    | .ok place => return (.ok place.path, { u with object? := some place.path })

/-- The place of the unit's executable, found on first use: the one that was asked for, else one
beside the copy. -/
def executable (m : Machine) (cfg : Config) (u : CompilationUnit) :
    StateM Host (Except UnitError Path × CompilationUnit) := do
  if u.isHeader then return (.error (.headerNotCompiled u.path), u)
  match u.executable?, cfg.executable with
  | some path, _ => return (.ok path, u)
  | none, some path => return (.ok path, { u with executable? := some path })
  | none, none =>
    match ← Placement.find m cfg.cacheRoot (u.copy.withExtension "") with
    | .error cause => return (.error (.location cause), u)
    | .ok place => return (.ok place.path, { u with executable? := some place.path })

/-- Remove a file that the tool has made. -/
def removeFile (m : Machine) (p : Path) : StateM Host Unit := do
  match ← Host.remove m p with
  | .ok () => Host.note (.removed p)
  | .error cause => Host.note (.notRemoved p cause)

/-- Remove the copy and the object, unless temporary files are kept. -/
def cleanup (m : Machine) (cfg : Config) (u : CompilationUnit) : StateM Host CompilationUnit := do
  if cfg.saveTemps then return u
  if u.copied then removeFile m u.copy
  if let some object := u.object? then removeFile m object
  return { u with copied := false, object? := none }

/-- Remove the executable, unless it was asked for or temporary files are kept. -/
def removeExecutable (m : Machine) (cfg : Config) (u : CompilationUnit) :
    StateM Host CompilationUnit := do
  if cfg.saveTemps || cfg.buildsOnly then return u
  if let some executable := u.executable? then removeFile m executable
  return { u with executable? := none }

end CompilationUnit

end CxxScript

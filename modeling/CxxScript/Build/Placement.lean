import CxxScript.Host.Storage

/-!
# Where a derived file goes

A derived file stands beside its source where it can be written there, and otherwise below the
cache root, where its absolute location is repeated. Trying a place means
opening the file there for appending: an existing file keeps its content, a missing one comes into
being empty.
-/

set_option autoImplicit false

namespace CxxScript

/-- Why there is no place for a file. -/
inductive PlacementError where
  | noCacheDirectory
  | notWritable (path place : Path)
  deriving DecidableEq, Repr

/-- The text of a placement error. -/
def PlacementError.message : PlacementError → String
  | .noCacheDirectory => "could not determine the per-user cache directory"
  | .notWritable path place =>
    s!"no writable location for {path.text} (also tried {place.text})"

namespace Machine

/-- An environment variable that is set to something. -/
def setting? (m : Machine) (name : String) : Option String :=
  (m.valueOf? name).filter fun value => !value.isEmpty

/-- The home directory: the one the environment names, else the one on record. -/
def home? (m : Machine) : Option String := (m.setting? "HOME").or m.accountHome

/-- The directory for the user's cached files. -/
def userCache? (m : Machine) : Option Path :=
  m.home?.map fun home =>
    match m.valueOf? "XDG_CACHE_HOME" with
    | some dir =>
      if (⟨dir⟩ : Path).isAbsolute then ⟨dir⟩ else (⟨home⟩ : Path).join ⟨".cache"⟩
    | none => (⟨home⟩ : Path).join ⟨".cache"⟩

/-- The environment variable that names the cache root. -/
def cacheVariable : String := "HBCXX_CACHE_DIR"

/-- The cache root: the one the environment names, else a directory in the user's cache. -/
def cacheRoot (m : Machine) : Except PlacementError Path :=
  match m.setting? cacheVariable with
  | some dir => .ok ⟨dir⟩
  | none =>
    match m.userCache? with
    | some cache => .ok (cache.join ⟨"hbcxx"⟩)
    | none => .error .noCacheDirectory

end Machine

/-- A place that was found for a file. -/
structure Placement where
  path : Path
  /-- Whether the file could not stand where it was meant to. -/
  relocated : Bool
  deriving DecidableEq, Repr

namespace Placement

/-- Open a file for appending, which creates it where it is missing, and say whether that went
well. -/
def touch (m : Machine) (p : Path) : StateM Host Bool := do
  return (← Host.openAppend m p).isOk

/-- Make the directory in which a file is to stand, as far as that can be done. -/
def makeParent (m : Machine) (p : Path) : StateM Host Unit := do
  if let some dir := p.parent? then
    let _ ← Host.makeDirectories m dir

/-- Find a place for a file: where it is meant to stand, else at its location repeated below `root`.
The file is then there. -/
def find (m : Machine) (root p : Path) : StateM Host (Except PlacementError Placement) := do
  if ← touch m p then return .ok ⟨p, false⟩
  let place := Path.relocate root ((← get).files.workingLocation? m.cwd) p
  makeParent m place
  if ← touch m place then
    Host.note (.relocated p place)
    return .ok ⟨place, true⟩
  return .error (.notWritable p place)

end Placement

end CxxScript

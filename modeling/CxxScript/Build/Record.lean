import CxxScript.Build.Config
import CxxScript.Host.Storage
import CxxScript.Text.Json

/-!
# The remembered compiler

The compiler that was found usable is remembered below the cache root, so that later runs need not
look for it again. The record is a JSON object; an array of the three values in order is read too,
members with other names are passed over, and anything else is as good as no record.
-/

set_option autoImplicit false

namespace CxxScript

/-- The compiler chosen by an earlier run. -/
structure ToolchainRecord where
  /-- The compiler's name, without a launcher before it. -/
  compiler : String
  /-- Whether a compiler cache was at hand when the record was made. -/
  ccache : Bool
  /-- When the record was made, in seconds since the epoch. -/
  createdAt : UInt64
  deriving DecidableEq, Repr

/-- Why a record could not be kept. -/
inductive RecordError where
  | root (path : Path) (cause : IoError)
  | write (path : Path) (cause : IoError)
  deriving DecidableEq, Repr

/-- The text of a record error. -/
def RecordError.message : RecordError → String
  | .root path cause => s!"failed to create cache root {path.text}: {cause.message}"
  | .write path cause => s!"failed to write toolchain record {path.text}: {cause.message}"

namespace ToolchainRecord

/-- The words that a compiler command begins with when a compiler cache is at hand. -/
def launcherWords (ccache : Bool) : List String := if ccache then ["ccache"] else []

/-- The compiler command. -/
def words (r : ToolchainRecord) : List String := launcherWords r.ccache ++ [r.compiler]

/-- The record as it is written. -/
def text (r : ToolchainRecord) : String :=
  "\x7b\n  \"compiler\": " ++ String.ofList (Text.Json.writeString r.compiler) ++
    ",\n  \"ccache\": " ++ (if r.ccache then "true" else "false") ++
    ",\n  \"created_at\": " ++ String.ofList (Text.Decimal.digits r.createdAt.toNat) ++ "\n\x7d"

/-- The record that three values make. -/
def ofValues? : Text.Json → Text.Json → Text.Json → Option ToolchainRecord
  | .string (some compiler), .bool ccache, .natural n =>
    if n < UInt64.size then some { compiler, ccache, createdAt := .ofNat n } else none
  | _, _, _ => none

/-- The value of the only member with a name. -/
def member? (name : String) (members : List (Option String × Text.Json)) : Option Text.Json :=
  match members.filter fun m => m.1 == some name with
  | [(_, v)] => some v
  | _ => none

/-- The record that a value stands for. -/
def ofJson? : Text.Json → Option ToolchainRecord
  | .array [compiler, ccache, createdAt] => ofValues? compiler ccache createdAt
  | .object members =>
    if members.any fun m => m.1.isNone then none
    else do
      let compiler ← member? "compiler" members
      let ccache ← member? "ccache" members
      ofValues? compiler ccache (← member? "created_at" members)
  | _ => none

/-- The record that a text writes. -/
def ofText? (text : String) : Option ToolchainRecord :=
  (Text.Json.parse? text.toList).bind ofJson?

/-- Where the record stands. -/
def place (root : Path) : Path := root.join ⟨"toolchain.json"⟩

/-- The remembered choice, if there is a record that can be read. -/
def lookup (m : Machine) (root : Path) : StateM Host (Option ToolchainRecord) := do
  match (← get).files.readText m.cwd (place root) with
  | .error _ => return none
  | .ok text =>
    match ofText? text with
    | some record =>
      Host.note (.cachedToolchain (place root))
      return some record
    | none =>
      Host.warn (.unreadableRecord (place root))
      return none

/-- Remember a choice. -/
def store (m : Machine) (root : Path) (r : ToolchainRecord) :
    StateM Host (Except RecordError Unit) := do
  match ← Host.makeDirectories m root with
  | .error cause => return .error (.root root cause)
  | .ok () =>
    return (← Host.write m (place root) (Text.Utf8.encode r.text)).mapError (.write (place root))

end ToolchainRecord

end CxxScript

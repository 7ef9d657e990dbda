import CxxScript.Path.Basic

/-!
# What a build is asked to do

A configuration is made once, from the options and the environment, and never changes while a
script is built and run.

Flags are kept in order and a run of flags that is already there is not added again, which keeps a
library list valid for a linker that reads it once. `Flags.hasRun_iff` says what "already there"
means: contiguous, anywhere in the list.
-/

set_option autoImplicit false

namespace CxxScript

/-- How a script is to be built and run. -/
structure Config where
  /-- Show every command and every removal. -/
  verbose : Bool := false
  /-- Keep the processed copies, the objects and the executable. -/
  saveTemps : Bool := false
  /-- The compiler command, which may begin with a launcher such as `ccache`. -/
  cxx : Option String := none
  /-- The debugger or wrapper that runs the program. -/
  debugger : Option String := none
  /-- Where the executable is wanted; it is then the product and is not run. -/
  executable : Option Path := none
  /-- The optimization level. -/
  optimization : Option String := none
  /-- Where files go that cannot stand beside their source, and where the compiler choice is
  remembered. -/
  cacheRoot : Path
  /-- The command that answers questions about packages. -/
  pkgConfig : String := "pkg-config"
  deriving DecidableEq, Repr

namespace Config

/-- Whether the executable is the product rather than a temporary file. -/
def buildsOnly (c : Config) : Bool := c.executable.isSome

end Config

namespace Flags

/-- Whether `run` stands contiguously somewhere in the list. -/
def hasRun (run : List String) : List String → Bool
  | [] => run.isEmpty
  | flag :: rest => run.isPrefixOf (flag :: rest) || hasRun run rest

/-- A list holds a run exactly when the run is an infix of it. -/
theorem hasRun_iff {run list : List String} : hasRun run list = true ↔ run <:+: list := by
  induction list with
  | nil => simp [hasRun]
  | cons flag rest ih => simp [hasRun, ih, List.infix_cons_iff]

/-- Add `run` at the end unless it is empty or already there; also says whether it was added. -/
def pushUnique (list run : List String) : List String × Bool :=
  if run.isEmpty || hasRun run list then (list, false) else (list ++ run, true)

end Flags

end CxxScript

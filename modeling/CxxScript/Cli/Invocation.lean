import CxxScript.Build.Config
import CxxScript.Build.Placement
import CxxScript.Cli.Options

/-!
# A command line and its three audiences

Arguments that begin with `--hbcxx-` are the tool's own wherever they stand. Of the others, the
first that names an existing file is the script; what stands before it goes to the compiler, what
stands behind it to the program.
-/

set_option autoImplicit false

namespace CxxScript.Cli

/-- A command line, taken apart. -/
structure Invocation where
  options : Options := {}
  toolsetFlags : List String := []
  script : Option Path := none
  programArgs : List String := []
  /-- Whether help was asked for before any script. -/
  wantsHelp : Bool := false
  deriving DecidableEq, Repr

namespace Invocation

/-- Whether an argument is the tool's own. -/
def isOwn (arg : String) : Bool := startsWith arg optionStart

/-- Whether an argument asks for help the usual way. -/
def asksForHelp (arg : String) : Bool := arg = "-h" || arg = "--help"

/-- Take one argument that is not the tool's own. -/
def take (isFile : String → Bool) (i : Invocation) (arg : String) : Invocation :=
  if i.script.isSome then { i with programArgs := i.programArgs ++ [arg] }
  else if isFile arg then { i with script := some ⟨arg⟩ }
  else
    { i with
      wantsHelp := i.wantsHelp || asksForHelp arg
      toolsetFlags := i.toolsetFlags ++ [arg] }

/-- The options among some arguments, as the option reader takes them. -/
def ownOptions (args : List String) : List String := (args.filter isOwn).map withEquals

/-- Take a command line apart. The options kept in a file come first, so that the command line
overrides them. -/
def parse (isFile : String → Bool) (args kept : List String) : Except OptionError Invocation := do
  let options ← Options.parse (kept ++ ownOptions args)
  return { (args.filter fun arg => !isOwn arg).foldl (take isFile) {} with options }

/-- A value that says something. -/
def nonEmpty (value : Option String) : Option String := value.filter fun v => !v.isEmpty

/-- The configuration that a command line and an environment ask for. -/
def config (m : Machine) (env : String → Option String) (i : Invocation) :
    Except PlacementError Config := do
  let cacheRoot ← match nonEmpty (env Machine.cacheVariable) with
    | some dir => .ok ⟨dir⟩
    | none => m.cacheRoot
  return {
    verbose := i.options.verbose
    saveTemps := i.options.saveTemps
    cxx := (nonEmpty i.options.cxx).or (nonEmpty (env "CXX"))
    debugger := nonEmpty i.options.debugger
    executable := i.options.executable
    optimization := nonEmpty i.options.optimization
    cacheRoot
    pkgConfig := (nonEmpty (env "PKG_CONFIG")).getD "pkg-config" }

end Invocation

end CxxScript.Cli

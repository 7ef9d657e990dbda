import CxxScript.Build.Unit
import CxxScript.Host.Spawn

/-!
# Starting the program

The linked program is started directly, with the script's path as its own name, or by a debugger or
another wrapper. Only gdb is told the program's arguments as a command of its own, and only
valgrind gets them behind the program.
-/

set_option autoImplicit false

namespace CxxScript

/-- How the program is started. -/
inductive Launcher where
  | plain
  | gdb
  | wrapper (command : String) (forwardsArgs : Bool)
  deriving DecidableEq, Repr

namespace Launcher

/-- Whether a wrapper hands arguments on to the program. -/
def forwardsArgs (command : String) : Bool :=
  command = "valgrind" || "valgrind ".toList.isPrefixOf command.toList

/-- The launcher for a configured debugger. -/
def ofDebugger : Option String → Launcher
  | none | some "" => .plain
  | some "gdb" => .gdb
  | some command => .wrapper command (forwardsArgs command)

/-- How a launcher is named in the tool's notes. -/
def text : Launcher → String
  | .plain => "Plain"
  | .gdb => "DebuggerWrapped"
  | .wrapper command forwards =>
    "GenericWrapper \x7b command: " ++ Text.quoted command ++ ", forward_args: " ++
      (if forwards then "true" else "false") ++ " \x7d"

/-- The command by which the program is started, unless it is started directly. -/
def command? (l : Launcher) (executable : Path) (args : List String) : Option Command :=
  match l with
  | .plain => none
  | .gdb =>
    let preset := ["-ex", "break main", "-ex", s!"run {Text.Words.join args}"]
    some { program := "gdb", args := executable.text :: if args.isEmpty then [] else preset }
  | .wrapper command forwards =>
    (Command.ofText? command).map fun c =>
      c.withArgs (executable.text :: if forwards then args else [])

/-- Why the program was not started. -/
inductive Error where
  | unit (cause : UnitError)
  | process (cause : ProcessError)
  deriving DecidableEq, Repr

/-- Start the unit's program and wait for its end. -/
def launch (m : Machine) (cfg : Config) (l : Launcher) (u : CompilationUnit)
    (args : List String) : StateM Host (Except Error ExitStatus × CompilationUnit) := do
  match ← u.executable m cfg with
  | (.error cause, u) => return (.error (.unit cause), u)
  | (.ok executable, u) =>
    let ended ← match l.command? executable args with
      | some c => Host.run m c
      | none => Host.runAs m executable (u.path.text :: args)
    match ended with
    | .error cause => return (.error (.process cause), u)
    | .ok status =>
      Host.note (.finished status)
      return (.ok status, u)

end Launcher

end CxxScript

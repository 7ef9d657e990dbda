import CxxScript.Build.Steps
import CxxScript.Cli.Invocation
import CxxScript.Cli.RcFile

/-!
# A whole run

A run reads the options, builds the script and starts its program, and ends as the program ended:
with its exit code, or by the signal that ended it. Interrupts are held back while the temporary
files are there; one that is still pending when they are gone ends the tool, unless the program has
ended by itself, having had its chance to handle it.
-/

set_option autoImplicit false

namespace CxxScript.Cli

/-- How the tool itself ends. Where it ends by a signal it may first have given up its own core
file, the program having left one. -/
inductive Ending where
  | exited (code : Int)
  | killed (signal : Signal) (coreSuppressed : Bool)
  deriving DecidableEq, Repr

/-- How a run ended, and how much of it is shown. -/
structure Conclusion where
  ending : Ending
  verbosity : Verbosity
  deriving DecidableEq, Repr

/-- The version of the tool. -/
def version : String := "0.3.0"

/-- The help text. -/
def usage : List String := [
  "USAGE: hbcxx [TOOLSET OPTION]... [SOURCE FILE] [PROGRAM OPTION]...",
  "Compile, link and execute the supplied source file. Run C++ source",
  "code as a script.",
  "",
  "The following arguments control hbcxx and can be included anywhere on",
  "the command line.",
  "",
  "  --hbcxx-cxx=COMPILER    Use COMPILER to compile and link the program",
  "  --hbcxx-debugger=DBG    Use DBG to debug the program",
  "  --hbcxx-executable=EXE  Write executable file to EXE, then exit",
  "  --hbcxx-help            Show this help, then exit",
  "  --hbcxx-save-temps      Do not delete temporary files",
  "  --hbcxx-Ox              Override the optimization level, set to x",
  "  --hbcxx-verbose         Show commands as they are executed",
  "  --hbcxx-version         Show hbcxx version information, then exit",
  "",
  "Options may also be given one per line in ~/.hbcxxrc (or $HBCXXRC)."]

/-- Write a line on standard output. -/
def say (text : String) : StateM Host Unit := Host.emit (.line .output text)

/-- Write a line on standard error. -/
def complain (text : String) : StateM Host Unit := Host.emit (.line .error text)

/-- Where to turn for help. -/
def hint : String := s!"Try '{toolName} --hbcxx-help' for more information."

/-- Write the help text. -/
def showUsage : StateM Host Unit := usage.forM say

/-- Tell of a failure, unless it has been told already. -/
def tell (f : Failure) : StateM Host Unit := do
  if f.alreadyReported then return
  complain s!"{toolName}: {f.message}"
  if f = .noInputFile then complain hint

/-- Tell of a failure and end with its exit code. -/
def fail (f : Failure) : StateM Host Ending := do
  tell f
  return .exited f.exitCode.value

/-- The words for how much is shown. -/
def verbosityWords : List (String × Verbosity) := [
  ("off", .silent), ("0", .silent), ("error", .silent), ("1", .silent),
  ("warn", .warnings), ("2", .warnings), ("info", .warnings), ("3", .warnings),
  ("debug", .steps), ("4", .steps), ("trace", .steps), ("5", .steps)]

/-- How much is shown: what the environment says wins over the option. A word that names no level
names something else to show, so nothing of this tool's. -/
def verbosity (m : Machine) (verbose : Bool) : Verbosity :=
  match m.valueOf? "RUST_LOG" with
  | some word => (verbosityWords.lookup word.toLower).getD .silent
  | none => if verbose then .steps else .warnings

/-- Restore the signal mask. What was held back is delivered now, and the first signal that ends
the tool is given. -/
def unmask (before : SignalSet) : StateM Host (Option Signal) := do
  Host.modifySignals (·.setMask before)
  return (← get).signals.ending?

/-- Restore the signal mask and go on, if the tool is still there. -/
def afterUnmask (before : SignalSet) (next : StateM Host Ending) : StateM Host Ending := do
  match ← unmask before with
  | some signal => return .killed signal false
  | none => next

/-- Raise a signal that has its default action again, and let it through, but no other. -/
def raiseAgain (signal : Signal) : StateM Host (Option Signal) := do
  Host.modifySignals (·.restoreDefault signal)
  Host.modifySignals (·.raise signal)
  Host.modifySignals fun s => s.setMask (s.blocked.erase signal)
  return (← get).signals.ending?

/-- End by the signal that ended the program. The core file, where the signal means one, is the
program's, so the tool gives up its own. A signal without a name, and one that ends no process, is
told by the exit code instead. -/
def reraise (signal : Signal) : StateM Host Ending := do
  if signal.isKnown then
    Host.suppressCore signal
    Host.note (.reraising signal)
    if let some signal := ← raiseAgain signal then
      return .killed signal (← get).coreSuppressed
  return .exited (128 + signal)

/-- End as the program ended. -/
def propagate : ExitStatus → StateM Host Ending
  | .exited code => return .exited code
  | .signaled signal _ => reraise signal

/-- Start the program of a script that is built, and clear up. -/
def launch (m : Machine) (cfg : Config) (before : SignalSet) (b : Build) (executable : Path)
    (args : List String) : StateM Host Ending := do
  let l := Launcher.ofDebugger cfg.debugger
  Host.note (.launching executable l.text)
  let (launched, b) ← b.launch m l cfg args
  let _ ← b.removeExecutable m
  match launched with
  | .ok (.signaled signal core) => propagate (.signaled signal core)
  | .ok status =>
    Host.discardInterrupts
    afterUnmask before (propagate status)
  | .error f => afterUnmask before (fail f)

/-- Build a script and start its program. -/
def execute (m : Machine) (cfg : Config) (script : Path) (i : Invocation) :
    StateM Host Ending := do
  let before := (← get).signals.blocked
  Host.modifySignals (·.blockInterrupts)
  let ts ← (Toolset.ofConfig cfg).pushFlags i.toolsetFlags .normal
  let (built, b, _) ← (Build.ofPath m (← get) cfg script).build m ts
  match built with
  | .error f => afterUnmask before (fail f)
  | .ok executable =>
    if cfg.buildsOnly then
      Host.note (.executableWritten executable)
      afterUnmask before (return .exited ExitCode.success.value)
    else launch m cfg before b executable i.programArgs

/-- The options kept in a file; a file that cannot be read is told of and has none. -/
def keptOptions (m : Machine) : StateM Host RcFile := do
  match RcFile.place? m with
  | none => return {}
  | some path =>
    match RcFile.load m (← get) path with
    | .ok rc => return rc
    | .error e =>
      complain s!"{toolName}: warning: {e.message}"
      return {}

/-- Do what a command line asks for once it is taken apart. -/
def perform (m : Machine) (i : Invocation) : StateM Host Ending := do
  match i.script with
  | none =>
    if i.wantsHelp then
      showUsage
      return .exited ExitCode.success.value
    else fail .noInputFile
  | some script =>
    match i.config m m.valueOf? with
    | .error _ => fail (.internal "cannot locate a cache directory")
    | .ok cfg => execute m cfg script i

/-- The end of a run, which comes early where a signal has ended the tool: nothing that the run has
done after that has happened. -/
def cutOff (c : Conclusion) : StateM Host Conclusion := do
  match (← get).death with
  | none => return c
  | some d =>
    modify fun h => { h with files := d.files, events := d.events }
    return { c with ending := .killed d.signal d.coreSuppressed }

/-- Run the tool. -/
def run (m : Machine) (args : List String) : StateM Host Conclusion := do
  let rc ← keptOptions m
  let h ← get
  match Invocation.parse (fun arg => h.isFile m ⟨arg⟩) args rc.options with
  | .error e =>
    complain s!"error: {e.message}"
    complain hint
    return ⟨.exited ExitCode.noInput.value, .silent⟩
  | .ok i =>
    if i.options.help then
      showUsage
      return ⟨.exited ExitCode.success.value, .silent⟩
    if i.options.version then
      say s!"{toolName} {version}"
      return ⟨.exited ExitCode.success.value, .silent⟩
    rc.warnings.forM fun text => Host.warn (.badOption text)
    cutOff ⟨← perform m i, verbosity m i.options.verbose⟩

end CxxScript.Cli

import CxxScript.Build.Launcher
import CxxScript.Build.Toolset

/-!
# How a run fails

Everything that can end a run early, with its text and the exit code it gives the tool. The codes
tell who is at fault: the script, the compiler or the program's start, the command line, or the
tool itself; an interrupt has a code of its own.
-/

set_option autoImplicit false

namespace CxxScript

/-- Why a run ended early. -/
inductive Failure where
  | directive (cause : ScanError)
  | buildTool (cause : BuildToolError)
  | noInputFile
  | launch (cause : ProcessError)
  | unit (cause : UnitError)
  | process (cause : ProcessError)
  | internal (text : String)
  /-- Files kept turning up while the script's files were being collected. -/
  | endless
  deriving DecidableEq, Repr

/-- The exit codes of the tool itself. -/
inductive ExitCode where
  | success
  | internal
  | noInput
  | buildTool
  | directive
  | interrupted
  deriving DecidableEq, Repr

/-- The number of an exit code. -/
def ExitCode.value : ExitCode → Int
  | .success => 0
  | .internal => 124
  | .noInput => 125
  | .buildTool => 126
  | .directive => 127
  | .interrupted => 130

namespace Failure

/-- The failure to start the program. -/
def ofLaunch : Launcher.Error → Failure
  | .unit cause => .unit cause
  | .process cause => .launch cause

/-- The text of a failure. -/
def message : Failure → String
  | .directive cause => cause.message
  | .buildTool cause => cause.message
  | .noInputFile => "cannot find file to execute"
  | .launch cause => s!"failed to launch program: {cause.message}"
  | .unit cause => cause.message
  | .process cause => cause.message
  | .internal text => text
  | .endless => "the files of the script do not come to an end"

/-- The interrupt that stopped the run. -/
def interruptSignal? : Failure → Option Signal
  | .directive cause => cause.interruptSignal?
  | .process (.interrupted signal) => some signal
  | _ => none

/-- The kind of exit code for a failure that is no interrupt. -/
def fault : Failure → ExitCode
  | .directive (.unit (.headerNotCompiled _)) | .directive (.processingFailed ..)
  | .directive (.read ..) => .directive
  | .buildTool _ | .launch _ => .buildTool
  | .noInputFile => .noInput
  | .directive _ | .unit _ | .process _ | .internal _ | .endless => .internal

/-- The exit code for a failure. -/
def exitCode (f : Failure) : ExitCode :=
  if f.interruptSignal?.isSome then .interrupted else f.fault

/-- Whether the reports on the source files have told of the failure already. -/
def alreadyReported : Failure → Bool
  | .directive (.processingFailed ..) => true
  | _ => false

end Failure

end CxxScript

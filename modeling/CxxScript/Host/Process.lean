import CxxScript.Host.Errno
import CxxScript.Host.Signal
import CxxScript.Text.Words

/-!
# Processes

A command line is a program and its arguments; nothing hands it to a shell. A process ends with a
status or by a signal. What can go wrong on the way is a `ProcessError`.
-/

set_option autoImplicit false

namespace CxxScript

/-- A program with its arguments. -/
structure Command where
  program : String
  args : List String := []
  discardStderr : Bool := false
  deriving DecidableEq, Repr

namespace Command

/-- The first word is the program. -/
def ofWords? : List String → Option Command
  | [] => none
  | program :: args => some { program, args }

/-- The command that a flag string such as `ccache g++ -m32` spells. -/
def ofText? (text : String) : Option Command := ofWords? (Text.Words.split text)

/-- A script run by the system's shell. -/
def shell (script : String) : Command := { program := "/bin/sh", args := ["-c", script] }

/-- The command with further arguments. -/
def withArgs (c : Command) (args : List String) : Command := { c with args := c.args ++ args }

/-- The program and its arguments. -/
def words (c : Command) : List String := c.program :: c.args

/-- The command as a shell would read it. -/
def text (c : Command) : String := Text.Words.join c.words

end Command

/-- How a process ended. -/
inductive ExitStatus where
  | exited (code : Int)
  | signaled (signal : Signal) (coreDumped : Bool)
  deriving DecidableEq, Repr

namespace ExitStatus

/-- Whether the process ended well. -/
def success (s : ExitStatus) : Bool := s == .exited 0

/-- The exit code, if the process ended by itself. -/
def code? : ExitStatus → Option Int
  | .exited code => some code
  | .signaled .. => none

/-- The signal that ended the process, if one did. -/
def signal? : ExitStatus → Option Signal
  | .exited _ => none
  | .signaled signal _ => some signal

/-- Read a wait status: the low seven bits hold the signal, the next one the core flag, the byte
above them the exit code. A process that is only stopped or continued has neither. -/
def ofWaitStatus (raw : Int) : ExitStatus :=
  let signal := raw % 128
  if signal = 0 then .exited (raw / 256 % 256)
  else if signal = 127 then .exited (-1)
  else .signaled signal (raw / 128 % 2 = 1)

/-- How the end of a process is told. -/
def text : ExitStatus → String
  | .exited code => s!"exit status {code}"
  | .signaled signal coreDumped =>
    s!"terminated by {signal.name}" ++ if coreDumped then " (core dumped)" else ""

end ExitStatus

/-- Why a process could not be run to its end. -/
inductive ProcessError where
  | spawn (command : String) (cause : IoError)
  | wait (command : String) (cause : IoError)
  | mask (cause : Errno)
  | interrupted (signal : Signal)
  deriving DecidableEq, Repr

/-- The text of a process error. -/
def ProcessError.message : ProcessError → String
  | .spawn command cause => "failed to run `" ++ command ++ "`: " ++ cause.message
  | .wait command cause => "failed to wait for `" ++ command ++ "`: " ++ cause.message
  | .mask cause => s!"failed to update the signal mask: {cause.symbolicText}"
  | .interrupted signal => s!"interrupted by signal {signal}"

end CxxScript

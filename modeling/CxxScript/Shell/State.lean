import CxxScript.Host.Machine
import CxxScript.Shell.Script
import CxxScript.Shell.Switch

/-!
# A running shell

The state of one shell process: its parameters and variables, its switches, the status of the last
command, the files as it sees them, and where its output goes.
-/

set_option autoImplicit false

namespace CxxScript.Shell

/-- Where the output of a command goes: to a stream of the shell, to a file, to whoever collects it,
or nowhere. Something may take no output at all. -/
inductive Sink where
  | stream (s : Stream)
  | file (at_ : Location)
  | collected
  | nowhere
  | refusing (why : Errno)
  deriving DecidableEq, Repr

/-- Why a sink takes no output, if it takes none. -/
def Sink.refusal? : Sink → Option Errno
  | .refusing why => some why
  | _ => none

/-- How a command left the shell: ready for the next one, at its end, ended by a signal, on its way
out of loops or of a function, or out of the time it was given. -/
inductive Flow where
  | next
  | exit
  | killed (signal : Signal)
  | leaves (loops : Nat)
  | repeats (loops : Nat)
  | returns
  | exhausted
  deriving DecidableEq, Repr

/-- A running shell. What was written is kept with the latest first. -/
structure State where
  name : String
  params : List String
  bindings : List (String × String)
  status : Nat := 0
  line : Nat := 1
  /-- The built-in command that is running. -/
  within : Option String := none
  files : Files
  cwd : WorkingDir
  /-- The name by which the shell knows its working directory; empty if it knows none. -/
  place : String
  /-- The process number that scripts see; a copy of a shell keeps that of the shell. -/
  pid : Nat
  /-- The process number of the process itself. -/
  self : Nat
  /-- The processes above this one, the nearest first. -/
  ancestors : List Nat
  blocked : SignalSet
  input : List Char := []
  /-- Where what is written to a descriptor goes. -/
  sinks : List (Nat × Sink)
  written : List (Stream × Bytes) := []
  /-- Whether the built-in command that is running has written something that was not taken. -/
  unwritten : Bool := false
  /-- The signals that were sent to processes other than this one. -/
  sent : List (Nat × Signal) := []
  functions : List (String × Cmd) := []
  /-- The earlier values of the variables that the function at hand has made its own. -/
  locals : List (String × Option String) := []
  /-- The variables that are handed on to the programs that are started. -/
  exported : List String := []
  /-- The variables that are never changed again. -/
  fixed : List String := []
  switches : Switches := []
  /-- How many loops are running. -/
  loops : Nat := 0
  /-- How many functions are running. -/
  calls : Nat := 0
  /-- What has been collected, the latest first. -/
  collected : List Bytes := []
  /-- The status of the last command substitution of the command at hand. -/
  substituted : Option Nat := none
  /-- Whether the failure of the command at hand is being asked about. -/
  asked : Bool := false
  /-- What is done when a signal arrives, an empty text standing for nothing at all; under the
  number zero, what is done at the end. -/
  traps : List (Signal × String) := []
  /-- The signals that have arrived and that something is to be done about, in order. -/
  caught : List Signal := []
  /-- The process number of the last command that ran in the background, and how it ended. -/
  job : Option (Nat × ExitStatus) := none
  /-- Whether a program that is started takes the place of the shell. -/
  isLast : Bool := false

/-- How the system describes a signal that has ended a program. -/
def signalDescriptions : List (Signal × String) := [
  (1, "Hangup"), (3, "Quit"), (4, "Illegal instruction"), (5, "Trace/breakpoint trap"),
  (6, "Aborted"), (7, "Bus error"), (8, "Floating point exception"), (9, "Killed"),
  (10, "User defined signal 1"), (11, "Segmentation fault"), (12, "User defined signal 2"),
  (14, "Alarm clock"), (15, "Terminated"), (16, "Stack fault"), (24, "CPU time limit exceeded"),
  (25, "File size limit exceeded"), (26, "Virtual timer expired"),
  (27, "Profiling timer expired"), (29, "I/O possible"), (30, "Power failure"),
  (31, "Bad system call")]

/-- How the shell tells of a program that a signal has ended. An interrupt and a broken pipe are
told of by nothing but the status. -/
def killedText? (signal : Signal) (core : Bool) : Option String :=
  let text := match signalDescriptions.lookup signal with
    | some text => some text
    | none => if signal ≥ 34 then some s!"Real-time signal {signal - 34}" else none
  text.map (· ++ if core then " (core dumped)" else "")

namespace State

/-- Whether a switch is on. -/
def has (st : State) (letter : Char) : Bool := st.switches.contains letter

/-- Where what is written to a descriptor goes. One that is closed takes nothing. -/
def sinkOf (st : State) (descriptor : Nat) : Sink :=
  (st.sinks.lookup descriptor).getD (.refusing .badDescriptor)

/-- Where the standard output goes. -/
def out (st : State) : Sink := st.sinkOf 1

/-- Where complaints go. -/
def err (st : State) : Sink := st.sinkOf 2

/-- Where what a program writes to one of its streams goes. -/
def sinkFor (st : State) : Stream → Sink
  | .output => st.out
  | .error => st.err

/-- Point a descriptor at a sink. -/
def point (st : State) (descriptor : Nat) (sink : Sink) : State :=
  { st with sinks := (descriptor, sink) :: st.sinks.filter (·.1 ≠ descriptor) }

/-- Close a descriptor. -/
def shut (st : State) (descriptor : Nat) : State :=
  { st with sinks := st.sinks.filter (·.1 ≠ descriptor) }

/-- Write bytes where a sink leads, if it takes them. -/
def writeTo (st : State) (sink : Sink) (bytes : Bytes) : State :=
  match sink with
  | .stream s => { st with written := (s, bytes) :: st.written }
  | .file at_ => { st with files := (st.files.append at_ bytes).toOption.getD st.files }
  | .collected => { st with collected := bytes :: st.collected }
  | .nowhere | .refusing _ => st

/-- Write on standard output. -/
def print (st : State) (bytes : Bytes) : State :=
  let refused := st.out.refusal?.isSome && !bytes.isEmpty
  { st.writeTo st.out bytes with unwritten := st.unwritten || refused }

/-- Write a line on standard output. -/
def printLine (st : State) (text : String) : State := st.print (Text.Utf8.encode (text ++ "\n"))

/-- Write a line on standard error. -/
def warnLine (st : State) (text : String) : State :=
  st.writeTo st.err (Text.Utf8.encode (text ++ "\n"))

/-- Complain on standard error, naming the script, the line and the built-in command that is
running. -/
def complain (st : State) (message : String) : State :=
  let within := st.within.elim "" (· ++ ": ")
  st.warnLine s!"{st.name}: {st.line}: {within}{message}"

/-- The shell with another status. -/
def withStatus (st : State) (status : Nat) : State := { st with status }

/-- The shell after a program, a copy of it or a job that it waited for has ended. -/
def reap (st : State) : ExitStatus → State
  | .exited code => st.withStatus code.toNat
  | .signaled signal core =>
    let st := match killedText? signal core with
      | some text => st.warnLine text
      | none => st
    st.withStatus (128 + signal.toNat)

/-- Set a variable. -/
def assign (st : State) (name value : String) : State :=
  { st with
    bindings := (name, value) :: st.bindings.filter (·.1 ≠ name)
    exported := if st.has Switch.exporting then name :: st.exported else st.exported }

/-- Set a variable unless it is never to be changed again. -/
def tryAssign (st : State) (name value : String) : Except String State :=
  if st.fixed.contains name then .error s!"{name}: is read only" else .ok (st.assign name value)

/-- Give a variable its earlier value back, or take it away again. -/
def restore (st : State) (saved : String × Option String) : State :=
  match saved.2 with
  | some value => st.assign saved.1 value
  | none => { st with bindings := st.bindings.filter (·.1 ≠ saved.1) }

/-- The environment of the programs that are started. -/
def environment (st : State) : List (String × String) :=
  st.bindings.filter fun v => st.exported.contains v.1

/-- A copy of the shell, which is a process of its own. It does nothing about signals that the shell
does something about, but it ignores those that the shell ignores. -/
def copy (st : State) : State :=
  { st with
    self := st.self + 1, ancestors := st.self :: st.ancestors
    traps := st.traps.filter (·.2.isEmpty), caught := [], isLast := false }

/-- Whether a program that is started takes the place of the shell, which has nothing left to do
about signals. -/
def givesPlace (st : State) : Bool := st.isLast && st.traps.all (·.2.isEmpty)

/-- The shell after a copy of it has ended: what the copy did to the files and what it wrote stays,
its variables do not. -/
def afterCopy (st copy : State) : State :=
  { st with
    files := copy.files, written := copy.written, sent := copy.sent
    collected := copy.collected, input := copy.input, status := copy.status }

/-- The value of a parameter, if it is set. -/
def parameter? (st : State) (name : String) : Option String :=
  match name with
  | "0" => some st.name
  | "#" => some (toString st.params.length)
  | "?" => some (toString st.status)
  | "$" => some (toString st.pid)
  | "-" => some st.switches.text
  | "!" => st.job.map fun j => toString j.1
  | "@" => some (" ".intercalate st.params)
  | "*" =>
    let separator := match st.bindings.lookup "IFS" with
      | none => " "
      | some gaps => String.ofList (gaps.toList.take 1)
    some (separator.intercalate st.params)
  | _ =>
    match name.toNat? with
    | some n => st.params[n - 1]?
    | none => st.bindings.lookup name

/-- Whether a parameter is missing: not set, or empty if that counts. -/
def isMissing (st : State) (name : String) (whenEmpty : Bool) : Bool :=
  match st.parameter? name with
  | none => true
  | some text => whenEmpty && text.isEmpty

/-- The characters between which fields are separated. -/
def gaps (st : State) : List Char := ((st.bindings.lookup "IFS").getD " \t\n").toList

/-- The signals that a program which is started does not take notice of. -/
def deaf (st : State) : SignalSet :=
  st.blocked.union fun s => st.traps.lookup s == some ""

/-- A signal arrives. It is lost on a shell for which it is blocked or that ignores it. -/
def raise (st : State) (signal : Signal) : State × Flow :=
  if st.deaf signal && signal ≠ 9 then (st, .next)
  else if (st.traps.lookup signal).isSome && signal ≠ 9 then
    ({ st with caught := st.caught ++ [signal] }, .next)
  else if signal.terminates then (st, .killed signal)
  else (st, .next)

/-- Take in the signals that have been sent to this process by others. -/
def heed (st : State) : State × Flow :=
  let mine := st.sent.filter (·.1 = st.self)
  mine.foldl (fun acc s =>
    match acc with
    | (st, .next) => st.raise s.2
    | ended => ended) ({ st with sent := st.sent.filter (·.1 ≠ st.self) }, .next)

end State

end CxxScript.Shell

import CxxScript.Host.Machine
import CxxScript.Host.Search

/-!
# Starting programs

A program named with a slash is opened as that path; any other name is searched along `PATH`, and
nowhere else. While a program runs, SIGINT and SIGQUIT are blocked for the tool and open for the
program, so an interrupt aimed at both is never lost. A query, whose output is captured, leaves the
mask alone.
-/

set_option autoImplicit false

namespace CxxScript

namespace Machine

/-- The directories that are searched for programs. -/
def searchPath (m : Machine) : String := (m.valueOf? "PATH").getD "/bin:/usr/bin"

/-- Open a file as a program and run it. -/
def executeFile (m : Machine) (name : String) (argv : List String) (blocked : SignalSet)
    (fs : Files) : Except Errno Outcome :=
  match fs.find m.cwd ⟨name⟩ with
  | .ok (file, .file _ true) => m.execute { file, name, argv, blocked } fs
  | .ok _ => .error .accessDenied
  | .error (.system e) => .error e
  | .error _ => .error .invalidArgument

/-- Open a file as a program; with `asScript` an executable file in no known format is read by the
system's shell. -/
def executeNamed (m : Machine) (asScript : Bool) (name : String) (argv : List String)
    (blocked : SignalSet) (fs : Files) : Except Errno Outcome :=
  match m.executeFile name argv blocked fs with
  | .error e =>
    if asScript && e = .notExecutableFormat then
      m.executeFile systemShell (systemShell :: name :: argv.tail) blocked fs
    else .error e
  | ok => ok

/-- Start a program by its name and run it to its end. -/
def start (m : Machine) (asScript : Bool) (program : String) (argv : List String)
    (blocked : SignalSet) (fs : Files) : Except IoError Outcome :=
  if (program :: argv).any (·.toList.contains '\x00') then .error .nulInArgument
  else
    let attempt (path : String) := m.executeNamed asScript path argv blocked fs
    match SearchPath.firstOf attempt m.searchPath program with
    | .ok o => .ok o
    | .error e => .error (.system e)

end Machine

namespace Host

/-- The host after a program has run: its files are there, what it wrote on the streams that
`shown` lets through is written down, and the signals it sent have arrived. -/
def absorb (h : Host) (o : Outcome) (shown : Stream → Bool) : Host :=
  settle { h with
    files := o.files
    signals := o.sent.foldl Signals.raise h.signals
    events := h.events ++ (o.written.filter fun w => shown w.1).map fun w => .bytes w.1 w.2 }

/-- Make an attempt to run a program to its end, with the interrupts blocked for the tool alone. -/
def runAttempt (attempt : SignalSet → Files → Except IoError Outcome) (shownAs : String)
    (discardStderr : Bool) : StateM Host (Except ProcessError ExitStatus) := do
  let before := (← get).signals.blocked
  modifySignals (·.blockInterrupts)
  let h ← get
  match attempt h.signals.forProgram h.files with
  | .error cause =>
    modifySignals (·.setMask before)
    return .error (.spawn shownAs cause)
  | .ok o =>
    modify (·.absorb o fun s => s = .output || !discardStderr)
    modifySignals (·.setMask before)
    return .ok o.status

/-- Run a program by its name to its end. -/
def runToEnd (m : Machine) (program : String) (argv : List String) (shownAs : String)
    (discardStderr : Bool) : StateM Host (Except ProcessError ExitStatus) :=
  runAttempt (m.start true program argv) shownAs discardStderr

/-- Run a command with the tool's own streams. -/
def run (m : Machine) (c : Command) : StateM Host (Except ProcessError ExitStatus) := do
  note (.running c)
  runToEnd m c.program c.words c.text c.discardStderr

/-- Run the program at a path with an explicit argument vector, whose first member the program
sees as its own name. -/
def runAs (m : Machine) (program : Path) (argv : List String) :
    StateM Host (Except ProcessError ExitStatus) := do
  note (.runningAs program argv)
  runToEnd m program.text (if argv.isEmpty then [program.text] else argv) (Text.Words.join argv)
    false

/-- What a program wrote on standard output, as text. -/
def outputText (o : Outcome) : String :=
  Text.Utf8.decodeLossy ((o.written.filter fun w => w.1 = .output).flatMap (·.2))

/-- Run a command and collect what it writes on standard output. -/
def capture (m : Machine) (c : Command) :
    StateM Host (Except ProcessError (ExitStatus × String)) := do
  note (.running c)
  let h ← get
  match m.start false c.program c.words h.signals.blocked h.files with
  | .error cause => return .error (.spawn c.text cause)
  | .ok o =>
    modify (·.absorb o fun s => s = .error && !c.discardStderr)
    return .ok (o.status, outputText o)

end Host

end CxxScript

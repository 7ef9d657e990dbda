import CxxScript.Host.Access
import CxxScript.Host.Event

/-!
# The machine and the state of a run

A `Machine` is what stays the same while the tool runs: the working location, the environment, the
process number, the clock, the behaviour of every program, and the schedule on which interrupts
arrive. A `Host` is what changes: the files, the signals of the tool, the number of times it has
looked for interrupts, and what has been written. The tool's work is a function on hosts, so every
statement about it is one about a host before and a host after. A signal may end the tool in the
middle of its work; the host then remembers that moment, and only a whole run is cut off there.
-/

set_option autoImplicit false

namespace CxxScript

/-- What a program is started with: the file it is read from, the name under which it was found,
its argument vector, and the signals that are blocked for it. -/
structure Start where
  file : Location
  name : String
  argv : List String
  blocked : SignalSet

/-- What a program did from its start to its end: how it ended, the files as it left them, what it
wrote, in order, and the signals it sent to the tool. -/
structure Outcome where
  status : ExitStatus
  files : Files
  written : List (Stream × Bytes) := []
  sent : List Signal := []

/-- What stays the same during a run. -/
structure Machine where
  cwd : Location
  environment : List (String × String)
  pid : Nat
  /-- Seconds since the epoch. -/
  time : Nat
  /-- The home directory on record for the account, for an environment that names none. -/
  accountHome : Option String
  /-- Read an executable file as a program and run it; the system may refuse. -/
  execute : Start → Files → Except Errno Outcome
  /-- The interrupts that arrive just before the tool looks for them for the n-th time. -/
  arrivals : Nat → List Signal := fun _ => []

/-- The shell that reads what is no program of its own. -/
def Machine.systemShell : String := "/bin/sh"

/-- The value of an environment variable. -/
def Machine.valueOf? (m : Machine) (name : String) : Option String := m.environment.lookup name

/-- The end of the tool by a signal, with the files and what had been written at that moment, and
whether the tool had given up its own core file by then. -/
structure Death where
  signal : Signal
  files : Files
  events : List Event
  coreSuppressed : Bool

/-- What changes during a run. -/
structure Host where
  files : Files
  signals : Signals := .initial
  polls : Nat := 0
  events : List Event := []
  /-- Whether the tool would leave no core file: its soft limit on their size is zero. -/
  coreSuppressed : Bool := false
  /-- Where a signal has ended the tool. What the host goes through after that is what would have
  happened if the tool had survived it. -/
  death : Option Death := none

namespace Host

/-- Take note of the first moment at which a signal has ended the tool. -/
def settle (h : Host) : Host :=
  match h.death, h.signals.ending? with
  | none, some signal =>
    { h with
      death := some
        { signal, files := h.files, events := h.events, coreSuppressed := h.coreSuppressed } }
  | _, _ => h

/-- The end of the tool leaves the signals as they are. -/
@[simp] theorem settle_signals (h : Host) : h.settle.signals = h.signals := by
  unfold settle
  split <;> rfl

/-- Write something down. -/
def emit (e : Event) : StateM Host Unit :=
  modify fun h => { h with events := h.events ++ [e] }

/-- Write down a step. -/
def note (n : Note) : StateM Host Unit := emit (.note n)

/-- Write down a warning. -/
def warn (w : Warning) : StateM Host Unit := emit (.warning w)

/-- Write down reports about a source file, in order. -/
def report (ds : List Source.Diagnostic) : StateM Host Unit :=
  modify fun h => { h with events := h.events ++ ds.map .diagnostic }

/-- Everything on standard output. -/
def output (h : Host) : Bytes := h.events.flatMap Event.onOutput

/-- Everything on standard error at a verbosity. -/
def errorOutput (h : Host) (v : Verbosity) : Bytes := h.events.flatMap (Event.onError v)

/-- Whether a path leads to a regular file. -/
def isFile (h : Host) (m : Machine) (p : Path) : Bool := h.files.isFile m.cwd p

/-- The key of a file. -/
def identity (h : Host) (m : Machine) (p : Path) : Path := h.files.identity m.cwd p

/-- Change the signals. -/
def modifySignals (f : Signals → Signals) : StateM Host Unit :=
  modify fun h => settle { h with signals := f h.signals }

/-- Look for an interrupt that has arrived while it was blocked. It stays pending, so it is still
delivered once the mask is lifted. -/
def poll (m : Machine) : StateM Host (Option Signal) :=
  modifyGet fun h =>
    let signals := (m.arrivals h.polls).foldl Signals.raise h.signals
    (signals.pendingInterrupt?, { h with signals, polls := h.polls + 1 })

/-- Consume one interrupt if it is pending. -/
def discard (signal : Signal) : StateM Host Unit := do
  if (← get).signals.pending signal then
    modifySignals (·.consume signal)
    note (.discarded signal)

/-- Consuming a pending interrupt changes the signals and is written down. -/
theorem signals_discard {h : Host} {signal : Signal} (hp : h.signals.pending signal = true) :
    ((discard signal).run h).2.signals = h.signals.consume signal := by
  have hrun : ((discard signal).run h).2.signals =
      (settle { h with signals := h.signals.consume signal }).signals := by
    simp only [discard, StateT.run_bind, StateT.run_get, pure_bind, hp, if_true]
    rfl
  rw [hrun, settle_signals]

/-- The host once every pending interrupt has been consumed, one after the other as long as there
is one. -/
def withoutInterrupts (h : Host) : Host :=
  match _ : h.signals.pendingInterrupt? with
  | none => h
  | some signal => withoutInterrupts ((discard signal).run h).2
termination_by h.signals.pendingInterrupts
decreasing_by
  rename_i hs
  rw [signals_discard (Signals.pending_of_pendingInterrupt? hs)]
  exact Signals.pendingInterrupts_consume hs

/-- Consume the pending interrupts so that lifting the mask does not deliver them. -/
def discardInterrupts : StateM Host Unit := modify withoutInterrupts

/-- Set the limit on the size of the tool's core file to zero, if the signal would write one. -/
def suppressCore (signal : Signal) : StateM Host Unit :=
  modify fun h => { h with coreSuppressed := h.coreSuppressed || signal.dumpsCore }

end Host

end CxxScript

/-!
# Signals

A process has a mask of blocked signals and a set of pending ones. A raised signal is delivered at
once unless it is blocked; a blocked one stays pending until the mask lets it through or it is
consumed. The tool blocks the two interrupts a terminal sends, SIGINT and SIGQUIT, while it works.
-/

set_option autoImplicit false

namespace CxxScript

/-- A signal number. -/
abbrev Signal := Int

namespace Signal

/-- The interrupt key. -/
def interrupt : Signal := 2
/-- The quit key. -/
def quit : Signal := 3
/-- Writing where nobody reads any more. -/
def brokenPipe : Signal := 13

/-- The signals that have a name. -/
def names : List (Signal × String) := [
  (1, "SIGHUP"), (2, "SIGINT"), (3, "SIGQUIT"), (4, "SIGILL"), (5, "SIGTRAP"), (6, "SIGABRT"),
  (7, "SIGBUS"), (8, "SIGFPE"), (9, "SIGKILL"), (10, "SIGUSR1"), (11, "SIGSEGV"),
  (12, "SIGUSR2"), (13, "SIGPIPE"), (14, "SIGALRM"), (15, "SIGTERM"), (16, "SIGSTKFLT"),
  (17, "SIGCHLD"), (18, "SIGCONT"), (19, "SIGSTOP"), (20, "SIGTSTP"), (21, "SIGTTIN"),
  (22, "SIGTTOU"), (23, "SIGURG"), (24, "SIGXCPU"), (25, "SIGXFSZ"), (26, "SIGVTALRM"),
  (27, "SIGPROF"), (28, "SIGWINCH"), (29, "SIGIO"), (30, "SIGPWR"), (31, "SIGSYS")]

/-- Whether the signal has a name. -/
def isKnown (s : Signal) : Bool := (names.lookup s).isSome

/-- The name of a signal, or its number where it has none. -/
def name (s : Signal) : String := (names.lookup s).getD s!"signal {s}"

/-- Whether the default action of the signal writes a core file. -/
def dumpsCore (s : Signal) : Bool := [3, 4, 5, 6, 7, 8, 11, 24, 25, 31].contains s

/-- Whether the default action of the signal is to do nothing. -/
def isIgnored (s : Signal) : Bool := [17, 18, 23, 28].contains s

/-- Whether the default action of the signal is to stop the process. -/
def stops (s : Signal) : Bool := [19, 20, 21, 22].contains s

/-- Whether the default action of the signal ends the process. -/
def terminates (s : Signal) : Bool := 1 ≤ s && s ≤ 64 && !s.isIgnored && !s.stops

end Signal

/-- A set of signals. -/
abbrev SignalSet := Signal → Bool

namespace SignalSet

/-- No signal. -/
def empty : SignalSet := fun _ => false

/-- SIGINT and SIGQUIT, which a terminal sends to the whole foreground process group. -/
def interrupts : SignalSet := fun s => s == Signal.interrupt || s == Signal.quit

/-- The signals of either set. -/
def union (a b : SignalSet) : SignalSet := fun s => a s || b s

/-- The signals of the first set that are not in the second. -/
def diff (a b : SignalSet) : SignalSet := fun s => a s && !b s

/-- The set with a signal added. -/
def insert (a : SignalSet) (s : Signal) : SignalSet := fun t => t == s || a t

/-- The set without a signal. -/
def erase (a : SignalSet) (s : Signal) : SignalSet := fun t => t != s && a t

end SignalSet

/-- The signals of a process: the blocked ones, the pending ones, those that it ignores, those that
were delivered, in order, and the first of these that has ended it. A signal that is not ignored
has its default action; the tool starts by ignoring a broken pipe alone. -/
structure Signals where
  blocked : SignalSet
  pending : SignalSet
  ignored : SignalSet := fun s => s == Signal.brokenPipe
  delivered : List Signal
  ending? : Option Signal := none

namespace Signals

/-- Nothing blocked, nothing pending. -/
def initial : Signals := { blocked := .empty, pending := .empty, delivered := [] }

/-- Whether the process ends when a signal is delivered. -/
def endsBy (s : Signals) (signal : Signal) : Bool := signal.terminates && !s.ignored signal

/-- Signals are delivered, in order. -/
def deliver (s : Signals) (signals : List Signal) : Signals :=
  { s with
    delivered := s.delivered ++ signals
    ending? := s.ending?.or (signals.find? s.endsBy) }

/-- A signal arrives. -/
def raise (s : Signals) (signal : Signal) : Signals :=
  if s.blocked signal then { s with pending := s.pending.insert signal }
  else s.deliver [signal]

/-- The signals of a set in increasing order. -/
def ordered (set : SignalSet) : List Signal :=
  ((List.range 65).map Int.ofNat).filter set

/-- Change the mask; what is pending and no longer blocked is delivered. -/
def setMask (s : Signals) (mask : SignalSet) : Signals :=
  deliver { s with blocked := mask, pending := fun t => s.pending t && mask t }
    (ordered (s.pending.diff mask))

/-- Block SIGINT and SIGQUIT in addition to what is blocked. -/
def blockInterrupts (s : Signals) : Signals := s.setMask (s.blocked.union .interrupts)

/-- The mask of a program that is started: the tool's own, with the interrupts open. -/
def forProgram (s : Signals) : SignalSet := s.blocked.diff .interrupts

/-- Blocking the interrupts makes no difference to a program that is started. -/
theorem forProgram_blockInterrupts (s : Signals) :
    s.blockInterrupts.forProgram = s.blocked.diff .interrupts := by
  funext t
  show ((s.blocked t || SignalSet.interrupts t) && !SignalSet.interrupts t) = _
  rw [SignalSet.diff]
  cases s.blocked t <;> cases SignalSet.interrupts t <;> rfl

/-- The interrupt that is pending, SIGINT before SIGQUIT. -/
def pendingInterrupt? (s : Signals) : Option Signal :=
  [Signal.interrupt, Signal.quit].find? s.pending

/-- How many interrupts are pending. -/
def pendingInterrupts (s : Signals) : Nat :=
  (s.pending .interrupt).toNat + (s.pending .quit).toNat

/-- Consume one pending signal. -/
def consume (s : Signals) (signal : Signal) : Signals :=
  { s with pending := s.pending.erase signal }

/-- The interrupt that is found pending is pending. -/
theorem pending_of_pendingInterrupt? {s : Signals} {signal : Signal}
    (h : s.pendingInterrupt? = some signal) : s.pending signal = true :=
  List.find?_some h

/-- Consuming the interrupt that is found pending leaves fewer of them. -/
theorem pendingInterrupts_consume {s : Signals} {signal : Signal}
    (h : s.pendingInterrupt? = some signal) :
    (s.consume signal).pendingInterrupts < s.pendingInterrupts := by
  have hp := pending_of_pendingInterrupt? h
  have hmem := List.mem_of_find?_eq_some h
  simp only [List.mem_cons, List.not_mem_nil, or_false] at hmem
  simp only [pendingInterrupts, consume, SignalSet.erase]
  rcases hmem with rfl | rfl
  · rw [hp]
    cases s.pending .quit <;> decide
  · rw [hp]
    cases s.pending .interrupt <;> decide

/-- Give a signal its default action again. -/
def restoreDefault (s : Signals) (signal : Signal) : Signals :=
  { s with ignored := s.ignored.erase signal }

end Signals

end CxxScript

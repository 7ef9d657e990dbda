/-!
# Switches of the shell

A shell is told how to work by switches, each of which has a letter, and most a name too. They are
given when it starts or set by a script while it runs.
-/

set_option autoImplicit false

namespace CxxScript.Shell

namespace Switch

/-- A command that fails ends the shell, unless its failure is being asked about. -/
def strict : Char := 'e'
/-- File name patterns stand for themselves. -/
def literalPaths : Char := 'f'
/-- Commands are read but not run. -/
def readOnly : Char := 'n'
/-- Commands come from the standard input. -/
def fromInput : Char := 's'
/-- Commands are shown when they are run. -/
def traced : Char := 'x'
/-- Lines are shown when they are read. -/
def echoed : Char := 'v'
/-- A redirection does not empty an existing file. -/
def careful : Char := 'C'
/-- Whatever is assigned is handed on to programs. -/
def exporting : Char := 'a'
/-- A parameter that is not set is an error. -/
def insisting : Char := 'u'

/-- The letters in the order in which they are told. -/
def letters : List Char :=
  ['p', 'u', 'b', 'a', 'C', 'E', 'V', 'v', 'x', 's', 'n', 'm', 'i', 'I', 'f', 'e']

/-- The switches that have a name; some have no letter and no effect. -/
def names : List (String × Option Char) := [
  ("errexit", some 'e'), ("noglob", some 'f'), ("ignoreeof", some 'I'), ("interactive", some 'i'),
  ("monitor", some 'm'), ("noexec", some 'n'), ("stdin", some 's'), ("xtrace", some 'x'),
  ("verbose", some 'v'), ("vi", some 'V'), ("emacs", some 'E'), ("noclobber", some 'C'),
  ("allexport", some 'a'), ("notify", some 'b'), ("nounset", some 'u'), ("privileged", some 'p'),
  ("nolog", none), ("debug", none)]

end Switch

/-- The switches that are on. -/
abbrev Switches := List Char

namespace Switches

/-- Turn a switch on or off. -/
def turn (s : Switches) (on : Bool) (letter : Char) : Switches :=
  if on then letter :: s.filter (· ≠ letter) else s.filter (· ≠ letter)

/-- The letters of the switches that are on. -/
def text (s : Switches) : String := String.ofList (Switch.letters.filter s.contains)

/-- The table of the switches by name. -/
def table (s : Switches) : List String :=
  "Current option settings" :: Switch.names.map fun n =>
    let on := n.2.any s.contains
    n.1 ++ "".pushn ' ' (16 - n.1.length) ++ if on then "on" else "off"

end Switches

/-- The switches that arguments set, and what else they say: the arguments that are left, whether
commands are an argument themselves, and whether the list of switches ended explicitly or the table
was asked for. -/
structure Switching where
  switches : Switches
  rest : List String
  commands : Bool := false
  closed : Bool := false
  tables : Nat := 0

namespace Switching

/-- Read the letters of one argument. -/
def letters (starting on : Bool) (s : Switching) : List Char → Except String Switching
  | [] => .ok s
  | 'o' :: more =>
    match s.rest with
    | [] => letters starting on { s with tables := s.tables + 1 } more
    | name :: rest =>
      match Switch.names.lookup name with
      | none => .error s!"Illegal option -o {name}"
      | some letter =>
        letters starting on
          { s with switches := letter.elim s.switches (s.switches.turn on), rest } more
  | c :: more =>
    if starting && c == 'c' then letters starting on { s with commands := true } more
    else if starting && c == 'l' then letters starting on s more
    else if Switch.letters.contains c then
      letters starting on { s with switches := s.switches.turn on c } more
    else .error s!"Illegal option -{c}"

/-- Read switches up to the first argument that is none. `starting` tells that they are given to the
shell when it starts. -/
def arguments (starting : Bool) : Nat → Switching → Except String Switching
  | 0, s => .ok s
  | fuel + 1, s =>
    match s.rest with
    | [] => .ok s
    | arg :: rest =>
      match arg.toList with
      | ['-'] =>
        let quiet := (s.switches.turn false Switch.traced).turn false Switch.echoed
        .ok { s with rest, switches := if starting then s.switches else quiet }
      | ['-', '-'] => .ok { s with rest, closed := true }
      | '-' :: more => do arguments starting fuel (← letters starting true { s with rest } more)
      | '+' :: more => do arguments starting fuel (← letters starting false { s with rest } more)
      | _ => .ok s

/-- Read the switches at the start of some arguments. -/
def read (starting : Bool) (switches : Switches) (args : List String) : Except String Switching :=
  arguments starting args.length.succ { switches, rest := args }

end Switching

end CxxScript.Shell

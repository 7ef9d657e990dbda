import CxxScript.Host.Signal
import CxxScript.Shell.Condition
import CxxScript.Shell.Escape
import CxxScript.Shell.Lookup
import CxxScript.Shell.Pattern
import CxxScript.Shell.Reader

/-!
# Built-in commands

The commands that the shell carries out itself. Each takes the shell and its arguments to the shell
afterwards and to the way the flow of commands goes on, or ends in a complaint.

They name a signal by its number, or by its name without `SIG` in either case of letters. The
signals behind the known ones have names that count from the first or the last of them.
-/

set_option autoImplicit false

namespace CxxScript.Shell.SignalName

/-- The greatest number of a signal. -/
def last : Nat := 64

/-- The first signal that has no meaning of its own. -/
def firstFree : Nat := 34

/-- The name of a signal, or its number where it has none. Under the number zero stands the end of
the shell. -/
def text (n : Nat) : String :=
  match n, Signal.names.lookup (Int.ofNat n) with
  | 0, _ => "EXIT"
  | 16, _ => "16"
  | _, some name => (name.drop 3).toString
  | _, none =>
    if n < firstFree then toString n
    else if n = firstFree then "RTMIN"
    else if n = last then "RTMAX"
    else if n < firstFree + 16 then s!"RTMIN+{n - firstFree}"
    else s!"RTMAX-{last - n}"

/-- The number of values that a number of a signal or of a process may have. -/
def numberValues : Nat := 2147483648

/-- The number at the start of a script's text, which has digits only. -/
def number? (text : String) : Option Nat :=
  if text.isEmpty || !text.all Char.isDigit then none
  else (text.toNat?).bind fun n => if n < numberValues then some n else none

/-- The number of the signal that a text names, down to a least one. -/
def find? (least : Nat) (name : String) : Option Nat :=
  match number? name with
  | some n => if n ≤ last then some n else none
  | none =>
    ((List.range (last + 1)).drop least).find? fun n => (text n).toUpper = name.toUpper

end CxxScript.Shell.SignalName

namespace CxxScript.Shell

namespace State

/-- Go on with a status. -/
def go (st : State) (status : Nat) : State × Flow := (st.withStatus status, .next)

/-- Complain and go on with a status. -/
def fail (st : State) (message : String) (status : Nat) : State × Flow :=
  (st.complain message).go status

/-- Complain and end with a status. -/
def abort (st : State) (message : String) (status : Nat) : State × Flow :=
  ((st.complain message).withStatus status, .exit)

end State

namespace Builtin

/-- The shell after a built-in command and its flow, or a complaint. -/
abbrev Answer := Except String (State × Flow)

/-- A number that a script gives as an argument. -/
def number (text : String) : Except String Nat :=
  match SignalName.number? text with
  | some n => .ok n
  | none => .error s!"Illegal number: {text}"

/-- Take the options off the start of some arguments: their letters in order, of which those in
`valued` come with a value, and the arguments that are left. -/
def options (known valued : List Char) :
    Nat → List String → Except String (List (Char × String) × List String)
  | 0, args => .ok ([], args)
  | _, [] => .ok ([], [])
  | fuel + 1, arg :: rest => do
    match arg.toList with
    | ['-', '-'] => return ([], rest)
    | '-' :: c :: more =>
      if valued.contains c then
        match more, rest with
        | [], [] => .error s!"No arg for -{c} option"
        | [], value :: rest =>
          let (found, rest) ← options known valued fuel rest
          return ((c, value) :: found, rest)
        | more, rest =>
          let (found, rest) ← options known valued fuel rest
          return ((c, String.ofList more) :: found, rest)
      else if known.contains c then
        let rest := if more.isEmpty then rest else String.ofList ('-' :: more) :: rest
        let (found, rest) ← options known valued fuel rest
        return ((c, "") :: found, rest)
      else .error s!"Illegal option -{c}"
    | _ => return ([], arg :: rest)

/-- Take the options off the start of some arguments. -/
def optionsOf (known valued : List Char) (args : List String) :
    Except String (List (Char × String) × List String) :=
  options known valued (args.foldl (fun total arg => total + arg.length + 1) 0) args

/-- A text in quotes that a shell reads back. -/
def quoted (text : String) : String :=
  "'" ++ "'\"'\"'".intercalate (text.splitOn "'") ++ "'"

/-- The variables with a name in some list, line by line in the order of their names. -/
def listing (st : State) (heading : String) (names : List String) : State × Flow :=
  let sorted := names.eraseDups.mergeSort fun a b => a ≤ b
  (sorted.foldl (fun st name => st.printLine <|
    heading ++ name ++ ((st.bindings.lookup name).map fun v => "=" ++ quoted v).getD "") st).go 0

/-! ## Flow -/

/-- End the shell, with the given status or that of the last command. -/
def exit (st : State) : List String → Answer
  | [] => return (st, .exit)
  | arg :: _ => do return (st.withStatus ((← number arg) % 256), .exit)

/-- Leave loops, or go on with the next round of one. Outside any loop nothing happens. -/
def leave (flow : Nat → Flow) (st : State) (args : List String) : Answer := do
  let asked ← number (args.headD "1")
  if asked = 0 then throw "Illegal number: 0"
  let n := min asked st.loops
  return if n = 0 then st.go 0 else (st.withStatus 0, flow (n - 1))

/-- Leave a function, with the given status or that of the last command. -/
def return_ (st : State) : List String → Answer
  | [] => return (st, .returns)
  | arg :: _ => do return (st.withStatus (← number arg), .returns)

/-- Drop leading parameters. -/
def shift (st : State) (args : List String) : Answer := do
  let n ← number (args.headD "1")
  if n ≤ st.params.length then return ({ st with params := st.params.drop n }).go 0
  else throw "can't shift that many"

/-! ## Variables -/

/-- The name in an argument of the form `name=value` or `name`. -/
def nameOf (arg : String) : String := String.ofList (arg.toList.takeWhile (· ≠ '='))

/-- Insist that a text can name a variable. -/
def checkName (name : String) : Except String Unit :=
  if Reader.isVariableName name.toList then .ok () else .error s!"{name}: bad variable name"

/-- Assign what an argument spells as `name=value`. -/
def assignArg (st : State) (arg : String) : Except String State := do
  checkName (nameOf arg)
  match arg.toList.dropWhile (· ≠ '=') with
  | [] => return st
  | _equals :: value => st.tryAssign (nameOf arg) (String.ofList value)

/-- Hand variables on to the programs that are started, with what the arguments spell as their
values. -/
def export_ (st : State) (args : List String) : Answer := do
  match ← optionsOf ['p'] [] args with
  | ([], arg :: rest) =>
    let st ← (arg :: rest).foldlM (fun st arg => do
      let st ← assignArg st arg
      return { st with exported := nameOf arg :: st.exported }) st
    return st.go 0
  | _ => return listing st "export " st.exported

/-- Set variables for good, with what the arguments spell as their values. -/
def readonly (st : State) (args : List String) : Answer := do
  match ← optionsOf ['p'] [] args with
  | ([], arg :: rest) =>
    let st ← (arg :: rest).foldlM (fun st arg => do
      let st ← assignArg st arg
      return { st with fixed := nameOf arg :: st.fixed }) st
    return st.go 0
  | _ => return listing st "readonly " st.fixed

/-- Make variables the function's own, with what the arguments spell as their values. -/
def local_ (st : State) (args : List String) : Answer := do
  if st.calls = 0 then throw "not in a function"
  let st ← (args.filter (· ≠ "-")).foldlM (fun (st : State) arg =>
    let name := nameOf arg
    assignArg { st with locals := (name, st.bindings.lookup name) :: st.locals } arg) st
  return st.go 0

/-- Forget variables or functions. -/
def unset (st : State) (args : List String) : Answer := do
  let (found, names) ← optionsOf ['v', 'f'] [] args
  if found.getLast?.map (·.1) = some 'f' then
    return ({ st with functions := st.functions.filter fun f => !names.contains f.1 }).go 0
  let st ← names.foldlM (fun (st : State) name => do
    checkName name
    if st.fixed.contains name then throw s!"{name}: is read only"
    return { st with
      bindings := st.bindings.filter (·.1 ≠ name)
      exported := st.exported.filter (· ≠ name) }) st
  return st.go 0

/-- Replace the parameters and turn switches on or off; without arguments, tell the variables. -/
def set (st : State) (args : List String) : Answer := do
  if args.isEmpty then return listing st "" (st.bindings.map (·.1))
  let s ← Switching.read false st.switches args
  let told := (List.replicate s.tables s.switches.table).flatten
  let st := told.foldl State.printLine { st with switches := s.switches }
  return (if s.closed || !s.rest.isEmpty then { st with params := s.rest } else st).go 0

/-! ## Input -/

/-- The characters of the next line of an input, quoted where a backslash stands in front of them,
whether a line feed ended it, and the input behind it. A line feed that is quoted does not count. -/
def nextLine (raw : Bool) : List Char → Marked × Bool × List Char
  | [] => ([], false, [])
  | '\n' :: rest => ([], true, rest)
  | '\\' :: c :: rest =>
    if raw then
      let (line, ended, behind) := nextLine raw (c :: rest)
      (('\\', true) :: line, ended, behind)
    else
      let (line, ended, behind) := nextLine raw rest
      if c = '\n' then (line, ended, behind) else ((c, true) :: line, ended, behind)
  | ['\\'] => (if raw then [('\\', true)] else [], false, [])
  | c :: rest =>
    let (line, ended, behind) := nextLine raw rest
    ((c, false) :: line, ended, behind)

/-- Whether a character stands between fields. -/
def isGap (gaps : List Char) (c : Char × Bool) : Bool := !c.2 && gaps.contains c.1

/-- Whether a character is a blank that stands between fields. -/
def isBlankGap (gaps : List Char) (c : Char × Bool) : Bool :=
  isGap gaps c && " \t\n".toList.contains c.1

/-- A line behind the gap at its start: blanks, and one other separator. -/
def dropGap (gaps : List Char) (m : Marked) : Marked :=
  match m.dropWhile (isBlankGap gaps) with
  | c :: rest => if isGap gaps c then rest.dropWhile (isBlankGap gaps) else c :: rest
  | [] => []

/-- The last field of a line, without the blanks at its end. A separator goes too if it ends the
only field. -/
def lastField (gaps : List Char) (m : Marked) : Marked :=
  let field := m.takeWhile fun c => !isGap gaps c
  if (dropGap gaps (m.drop field.length)).isEmpty then field
  else (m.reverse.dropWhile (isBlankGap gaps)).reverse

/-- Give the fields of a line to variables in order; the last variable takes all that is left. -/
def assignFields (gaps : List Char) (st : State) : List String → Marked → Except String State
  | [], _ => return st
  | [last], m => st.tryAssign last (lastField gaps m).text
  | name :: rest, m => do
    let field : Marked := m.takeWhile fun c => !isGap gaps c
    let st ← st.tryAssign name field.text
    assignFields gaps st rest (dropGap gaps (m.drop field.length))

/-- Read the next line of the input into variables; at the end of the input they become empty. -/
def read (st : State) (args : List String) : Answer := do
  let (found, names) ← optionsOf ['r'] ['p'] args
  if names.isEmpty then throw "arg count"
  names.forM checkName
  let (line, ended, behind) := nextLine (found.any (·.1 = 'r')) st.input
  let line := line.dropWhile (isBlankGap st.gaps)
  let st ← assignFields st.gaps { st with input := behind } names line
  return st.go (if ended then 0 else 1)

/-! ## The working directory -/

/-- The path that is left of a path's names when `.` and `..` are worked out by name. -/
def collapse (names : List String) : List String :=
  names.foldl (fun kept name =>
    if name = "" || name = "." then kept
    else if name = ".." then kept.dropLast
    else kept ++ [name]) []

/-- The name of the directory that a path leads to by its names, if the shell knows where it is. -/
def placeOf? (st : State) (dir : String) : Option String :=
  let isAbsolute := (⟨dir⟩ : Path).isAbsolute
  if !isAbsolute && st.place.isEmpty then none
  else
    let start := if isAbsolute then [] else Files.names st.place
    let root := if (if isAbsolute then dir else st.place).startsWith "//" then "//" else "/"
    some (root ++ "/".intercalate (collapse (start ++ Files.names dir)))

/-- The name of the directory that the shell works in, as the system tells it. -/
def systemPlace? (st : State) : Option String :=
  (st.files.workingLocation? st.cwd).map fun at_ => at_.path.text

/-- What the shell says where the system cannot tell the name of its working directory. -/
def lostPlace : String := "getcwd() failed: " ++ Errno.noEntry.description

/-- The shell with another name for its working directory: a given one, or the one that the system
tells. -/
def settle (st : State) (place : Option String) : State :=
  let (st, place) := match place.or (systemPlace? st) with
    | some place => (st, place)
    | none => (st.complain lostPlace, "")
  { (st.assign "PWD" place) with place, exported := "PWD" :: st.exported }

/-- Go to a directory: to a given one, to the one before, or home. -/
def cd (st : State) (args : List String) : Answer := do
  let (found, args) ← optionsOf ['L', 'P'] [] args
  let isPhysical := found.getLast?.map (·.1) = some 'P'
  let home := (st.bindings.lookup "HOME").getD ""
  let (dir, told) := match args with
    | [] => (home, false)
    | "-" :: _ => ((st.bindings.lookup "OLDPWD").getD "", true)
    | dir :: _ => (dir, false)
  let dir := if dir.isEmpty then "." else dir
  let place := if isPhysical then none else placeOf? st dir
  match st.files.goTo st.cwd ⟨place.getD dir⟩ with
  | .error _ => throw s!"can't cd to {dir}"
  | .ok cwd =>
    let before := { (st.assign "OLDPWD" st.place) with
      cwd, exported := "OLDPWD" :: st.exported }
    let st := settle before place
    return (if told then st.printLine st.place else st).go 0

/-- Tell the working directory. -/
def pwd (st : State) (args : List String) : Answer := do
  let (found, _) ← optionsOf ['L', 'P'] [] args
  if found.getLast?.map (·.1) = some 'P' then
    match systemPlace? st with
    | some place => return (st.printLine place).go 0
    | none => return ((st.complain lostPlace).printLine "").go 0
  else return (st.printLine st.place).go 0

/-! ## Signals -/

/-- Send a signal to a process: the shell itself, one above it, its last job, or one that is not
there. A group of processes, whose number has a minus in front of it, is never there. -/
def sendTo (st : State) (signal : Signal) (target : String) : Except String (State × Flow) := do
  let isGroup := target.startsWith "-"
  let n ← number (if isGroup then (target.drop 1).toString else target)
  if isGroup then return st.fail s!"{Errno.noProcess.description}\n" 1
  else if n = st.self then
    let (st, flow) := st.raise signal
    return (st.withStatus 0, flow)
  else if st.ancestors.contains n then return ({ st with sent := st.sent ++ [(n, signal)] }).go 0
  else if st.job.any (·.1 = n) then return st.go 0
  else return st.fail s!"{Errno.noProcess.description}\n" 1

/-- Send a signal to each target in turn. -/
def send (st : State) (signal : Signal) : List String → Answer
  | [] => return st.go 0
  | target :: rest => do
    match ← sendTo st signal target with
    | (st, .next) =>
      let failed := st.status ≠ 0
      let (st, flow) ← send st signal rest
      return (if failed then st.withStatus 1 else st, flow)
    | ended => return ended

/-- How `kill` is called. -/
def killUsage : String :=
  "Usage: kill [-s sigspec | -signum | -sigspec] [pid | job]... or\nkill -l [exitstatus]"

/-- Tell the names of signals: of all, or of one that a status tells of. -/
def tellSignals (st : State) : List String → Answer
  | [] =>
    let all := "0" :: ((List.range (SignalName.last + 1)).drop 1).map SignalName.text
    return (all.foldl State.printLine st).go 0
  | arg :: _ => do
    let n ← number arg
    let n := if n > 128 then n - 128 else n
    if n = 0 || n > SignalName.last then throw s!"invalid signal number or exit status: {arg}"
    return (st.printLine (SignalName.text n)).go 0

/-- Send a signal, SIGTERM if none is named, to processes, or tell the names of signals. -/
def kill (st : State) (args : List String) : Answer := do
  let named : Option Nat := match args.head?.map String.toList with
    | some ('-' :: c :: more) => SignalName.find? 1 (String.ofList (c :: more))
    | _ => none
  let (signal, told, targets) ← match named with
    | some n => pure (n, false, args.drop 1)
    | none => do
      let (found, targets) ← optionsOf ['l'] ['s'] args
      let signal ← found.foldlM (fun signal o =>
        if o.1 = 's' then
          match SignalName.find? 1 o.2 with
          | some n => Except.ok n
          | none => .error s!"invalid signal number or name: {o.2}"
        else .ok signal) 15
      pure (signal, found.any (·.1 = 'l'), targets)
  if told then tellSignals st targets
  else if targets.isEmpty then throw killUsage
  else send st (Int.ofNat signal) targets

/-- Say what is to be done when a signal arrives or the shell ends, or tell it. -/
def trap (st : State) (args : List String) : Answer := do
  let (_, args) ← optionsOf [] [] args
  match args with
  | [] =>
    let known := (List.range (SignalName.last + 1)).filterMap fun n =>
      (st.traps.lookup (Int.ofNat n)).map fun action =>
        s!"trap -- {quoted action} {SignalName.text n}"
    return (known.foldl State.printLine st).go 0
  | first :: rest =>
    let isReset := rest.isEmpty || (SignalName.number? first).any (· ≤ SignalName.last)
    let (action, names) := if isReset then (none, first :: rest)
      else (if first = "-" then none else some first, rest)
    return names.foldl (fun acc name =>
      match acc, SignalName.find? 0 name with
      | (st, .next), some n =>
        if st.status = 1 then (st, .next)
        else
          let others := st.traps.filter (·.1 ≠ Int.ofNat n)
          ({ st with traps := (action.map fun a => (Int.ofNat n, a)).toList ++ others }).go 0
      | (st, .next), none =>
        if st.status = 1 then (st, .next) else (st.warnLine s!"trap: {name}: bad trap").go 1
      | ended, _ => ended) (st.go 0)

/-- Wait for jobs, all of which have ended already. -/
def wait (st : State) : List String → Answer
  | [] => return st.go 0
  | args => do
    let st ← args.foldlM (fun st arg => do
      let n ← number arg
      match st.job with
      | some (job, status) => return if job = n then st.reap status else st.withStatus 127
      | none => return st.withStatus 127) st
    return (st, .next)

/-! ## What names mean -/

/-- Tell what names mean. -/
def type (st : State) (args : List String) : Answer :=
  return args.foldl (fun acc name =>
    match Meaning.of? acc.1 name with
    | some m => ((acc.1.printLine (m.text name)), .next)
    | none => (acc.1.printLine s!"{name}: not found").go 127) (st.go 0)

/-- Look up where programs stand. -/
def hash (st : State) (args : List String) : Answer := do
  let (_, names) ← optionsOf ['r', 'v'] [] args
  return names.foldl (fun acc name =>
    match acc.1.findProgram name with
    | .ok _ => acc
    | .error _ => acc.1.fail s!"{name}: not found" 1) (st.go 0)

/-- Tell the mode that files are made without. -/
def umask (st : State) (args : List String) : Answer :=
  return if args.isEmpty then (st.printLine "0022").go 0 else st.go 0

/-! ## Conditions and output -/

/-- Decide a condition. -/
def test (st : State) (args : List String) : Answer := do
  return st.go (if ← Condition.evaluate st args then 0 else 1)

/-- Decide a condition in brackets. -/
def bracket (st : State) (args : List String) : Answer :=
  if args.getLast? = some "]" then test st args.dropLast else throw "missing ]"

/-- Write by a format. -/
def printf (st : State) (args : List String) : Answer := do
  match ← optionsOf [] [] args with
  | (_, []) => throw "usage: printf format [arg ...]"
  | (_, format :: args) =>
    let p := Escape.printf format args
    let st := p.complaints.foldl State.complain (st.print p.bytes)
    return st.go (if p.failed then 2 else if p.complaints.isEmpty then 0 else 1)

/-- The built-in command of a name. Those that run other commands are not among them. -/
def find? (name : String) : Option (State → List String → Answer) :=
  match name with
  | ":" | "true" | "times" | "jobs" | "alias" | "unalias" => some fun st _ => return st.go 0
  | "false" => some fun st _ => return st.go 1
  | "exit" => some exit
  | "break" => some (leave .leaves)
  | "continue" => some (leave .repeats)
  | "return" => some return_
  | "local" => some local_
  | "cd" | "chdir" => some cd
  | "pwd" => some pwd
  | "wait" => some wait
  | "trap" => some trap
  | "hash" => some hash
  | "type" => some type
  | "umask" => some umask
  | "shift" => some shift
  | "read" => some read
  | "export" => some export_
  | "readonly" => some readonly
  | "unset" => some unset
  | "set" => some set
  | "kill" => some kill
  | "test" => some test
  | "[" => some bracket
  | "echo" => some fun st args => return (st.print (Escape.echo args)).go 0
  | "printf" => some printf
  | _ => none

/-- Complain if a built-in command has written something that was not taken; its status is then an
odd number. -/
def deliver (st : State) (name : String) : State :=
  if st.unwritten then (st.complain s!"{name}: I/O error").withStatus (st.status ||| 1) else st

/-- Run a built-in command. A complaint ends the shell if the command is special. -/
def run (st : State) (name : String) (isSpecial : Bool)
    (builtin : State → List String → Answer) (args : List String) : State × Flow :=
  let inner := { st with within := some name, unwritten := false }
  let (after, flow) := match builtin inner args with
    | .ok after => after
    | .error message => if isSpecial then inner.abort message 2 else inner.fail message 2
  ({ deliver after name with within := st.within, unwritten := st.unwritten }, flow)

end Builtin

end CxxScript.Shell

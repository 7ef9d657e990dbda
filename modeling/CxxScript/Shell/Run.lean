import CxxScript.Shell.Builtin
import CxxScript.Shell.Expansion
import CxxScript.Shell.FirstLine
import CxxScript.Shell.Redirection
import CxxScript.Shell.Utility

/-!
# Running scripts and programs

The programs of a machine are scripts: an executable file that begins with `#!` names the program
that reads it, and a few utilities stand at fixed locations, the shell among them. `execute` opens
a file as a program and runs it to its end. Running takes a number of steps that is given from the
start; a program that exhausts it is ended the way the system ends one that exceeds its processor
time.
-/

set_option autoImplicit false

namespace CxxScript.Shell

/-! ## Programs that end -/

namespace State

/-- The shell after a program that it ran: files, input, output and signals are taken over. -/
def absorb (st : State) (e : Ended) : State :=
  let st := { st with files := e.files, input := e.input, sent := st.sent ++ e.sent }
  e.written.foldl (fun st w => st.writeTo (st.sinkFor w.1) w.2) st

/-- What a shell leaves behind. -/
def ended (st : State) (status : ExitStatus) : Ended where
  status
  files := st.files
  input := st.input
  written := st.written.reverse
  sent := st.sent

end State

/-- SIGXCPU, which ends a program that exceeds its processor time. -/
def timeExceeded : Signal := 24

/-- The status for a program that the system has refused to run. -/
def refusedStatus (e : Errno) : Nat :=
  if [Errno.noEntry, .notDirectory, .tooManyLinks, .nameTooLong].contains e then 127 else 126

/-- Why a program could not be run, in the shell's words. -/
def refusedText (e : Errno) : String :=
  if e = .noEntry || e = .notDirectory then "not found" else e.description

namespace Launch

/-- The number of bytes that one argument or one variable of the environment may have. -/
def maxTextBytes : Nat := 131071

/-- The room that the arguments and the environment of a program may take together. -/
def maxBytes : Nat := 2097152

/-- The arguments and the environment take too much room. Each text takes a byte more than it has,
and a pointer. -/
def isTooLong (l : Launch) : Bool :=
  let texts := l.start.argv ++ l.environment.map fun v => v.1 ++ "=" ++ v.2
  texts.any (·.utf8ByteSize > maxTextBytes) ||
    texts.foldl (fun total text => total + text.utf8ByteSize + 9) 0 > maxBytes

/-- How many interpreters may read one another. -/
def maxInterpreters : Nat := 5

/-- The end of a program that has used up its steps. -/
def exhausted (l : Launch) (fs : Files) : Ended :=
  { l.finish fs 0 [] with status := .signaled timeExceeded false }

end Launch

/-! ## A shell at its start -/

/-- What a shell is to run, as its arguments ask for it: a text, under which name, with which
parameters and switches. -/
structure Task where
  text : List Char
  name : String
  params : List String
  switches : Switches

/-- What the arguments of a shell ask for, or else a complaint. -/
def Task.of (l : Launch) (fs : Files) : Except String Task := do
  let s ← Switching.read true [] l.args
  let task (text : List Char) (name : String) (params : List String) : Task :=
    { text, name, params, switches := s.switches }
  if s.commands then
    match s.rest with
    | [] => .error "-c requires an argument"
    | text :: rest => return task text.toList (rest.headD l.self) (rest.drop 1)
  else if s.switches.contains Switch.fromInput then return task l.input l.self s.rest
  else match s.rest with
    | [] =>
      return { task l.input l.self [] with switches := Switch.fromInput :: s.switches }
    | file :: rest =>
      match fs.find l.cwd ⟨file⟩, fs.read l.cwd ⟨file⟩ with
      | .ok (_, .directory), _ => return task [] file rest
      | _, .ok content => return task (Text.Utf8.decodeLossy content).toList file rest
      | _, .error e => .error s!"cannot open {file}: {openFailure e false}"

/-- The directories that are searched where nothing else is asked for. -/
def usualPath : String := "/usr/local/sbin:/usr/local/bin:/usr/sbin:/usr/bin:/sbin:/bin"

/-- The variables of a shell at its start: what is handed to it, except for what it sets itself. -/
def initialBindings (l : Launch) : List (String × String) :=
  let own := [("PPID", toString (l.parents.headD 0)), ("IFS", " \t\n"), ("OPTIND", "1")]
  let handed := l.environment.filter fun v =>
    Reader.isVariableName v.1.toList && (own.lookup v.1).isNone
  let usual := [("PATH", usualPath), ("PS1", "# "), ("PS2", "> "), ("PS4", "+ ")]
  own ++ handed ++ usual.filter fun v => (handed.lookup v.1).isNone

/-- The shell at the start of a task. It believes the name that is handed to it for its working
directory if that leads there. -/
def State.initial (l : Launch) (fs : Files) (task : Task) : State :=
  let bindings := initialBindings l
  let place := (bindings.lookup "PWD").filter fun text =>
    let p : Path := ⟨text⟩
    p.isAbsolute && fs.canonical? l.cwd p = fs.workingLocation? l.cwd &&
      (fs.workingLocation? l.cwd).isSome
  let sink (s : Stream) : Sink := (l.refused s).elim (.stream s) .refusing
  let first : State := {
    sinks := [(0, .refusing .badDescriptor), (1, sink .output), (2, sink .error)]
    name := "sh", line := 0, params := task.params, bindings, files := fs, cwd := l.cwd
    place := "", pid := l.pid, self := l.pid, ancestors := l.parents, blocked := l.start.blocked
    input := l.input, exported := l.environment.map (·.1) }
  { Builtin.settle first place with name := task.name, line := 1, switches := task.switches }

/-! ## Commands -/

/-- The text of collected output, without the line feeds at its end. -/
def outputText (collected : List Bytes) : List Char :=
  ((Text.Utf8.decodeLossy collected.reverse.flatten).toList.reverse.dropWhile (· == '\n')).reverse

/-- End the shell if it is strict and a command has failed without being asked. -/
def strictly : State × Flow → State × Flow
  | (st, .next) =>
    if st.has Switch.strict && !st.asked && st.status ≠ 0 then (st, .exit) else (st, .next)
  | ended => ended

/-- The shell and its flow after a copy of it has ended. -/
def afterCopy (st : State) : State × Flow → State × Flow
  | (copy, .killed signal) => strictly ((st.afterCopy copy).reap (.signaled signal false), .next)
  | (copy, .exhausted) => (st.afterCopy copy, .exhausted)
  | (copy, _) => strictly (st.afterCopy copy, .next)

/-- The shell after a function: its parameters and the variables that were the function's own are
as before. -/
def afterCall (before after : State) : State :=
  { after.locals.foldl State.restore after with
    params := before.params, locals := before.locals, loops := before.loops
    calls := before.calls }

/-- The loop at hand after one round: whether it goes on, and else how it ends. -/
def afterRound : Flow → Option Flow
  | .next | .repeats 0 => none
  | .leaves 0 => some .next
  | .leaves (n + 1) => some (.leaves n)
  | .repeats (n + 1) => some (.repeats n)
  | flow => some flow

/-- Show a command before it is run. -/
def trace (st : State) (sink : Sink) (values : List (String × String)) (args : List String) :
    State :=
  if st.has Switch.traced then
    let texts := values.map (fun v => v.1 ++ "=" ++ v.2) ++ args
    let line := (st.bindings.lookup "PS4").getD "" ++ " ".intercalate texts ++ "\n"
    st.writeTo sink (Text.Utf8.encode line)
  else st

/-- Show lines that have been read. -/
def echoLines (st : State) (lines : List (List Char)) : State :=
  if st.has Switch.echoed then st.writeTo st.err (Text.Utf8.encode (String.ofList lines.flatten))
  else st

/-- Expand and carry out assignments in order; gives what was assigned. -/
def assignments (run : Collector) : List (String × Word) → Expanding (List (String × String))
  | [] => return []
  | (name, w) :: rest => do
    let value ← textOf run w
    assignOnTheWay name value
    return (name, value) :: (← assignments run rest)

/-- How deep functions may call one another. -/
def maxCalls : Nat := 1000

/-- What is asked of `command`: to tell about names, or to run a command. -/
inductive Plain where
  | tell (described : Bool) (names : List String)
  | run (args : List String)

/-- What the arguments of `command` ask for. -/
def Plain.of (args : List String) : Except String Plain := do
  let (found, rest) ← Builtin.optionsOf ['p', 'v', 'V'] [] args
  let letters := found.map (·.1)
  if letters.contains 'V' then return .tell true (rest.take 1)
  else if letters.contains 'v' then return .tell false (rest.take 1)
  else return .run rest

/-- Tell what names mean. -/
def tellNames (st : State) (described : Bool) (names : List String) : State × Flow :=
  names.foldl (fun acc name =>
    match Meaning.of? acc.1 name with
    | some m => (acc.1.printLine (if described then m.text name else m.short name), .next)
    | none =>
      if described then (acc.1.printLine s!"{name}: not found").go 127 else acc.1.go 127) (st.go 0)

/-- The file that the shell is to read commands from: along the search path, or by its path. -/
def sourceFile (st : State) (file : String) : Except String String :=
  if file.contains '/' then .ok file
  else match (st.candidates file).find? fun path => st.files.isFile st.cwd ⟨path⟩ with
    | some path => .ok path
    | none => .error s!"{file}: not found"

/-- The commands that a file holds. -/
def sourceText (st : State) (path : String) : Except String (List Char) :=
  match st.files.find st.cwd ⟨path⟩, st.files.read st.cwd ⟨path⟩ with
  | .ok (_, .directory), _ => .ok []
  | _, .ok content => .ok (Text.Utf8.decodeLossy content).toList
  | _, .error e => .error s!"cannot open {path}: {openFailure e false}"

/-- What `env` is asked for: its environment, and the program with its arguments. -/
structure EnvTask where
  environment : List (String × String)
  argv : List String

/-- Read the arguments of `env`: options, then variables, then a program. -/
def EnvTask.of : Nat → EnvTask → Except Char EnvTask
  | 0, task => .ok task
  | fuel + 1, task =>
    match task.argv with
    | [] => .ok task
    | arg :: rest =>
      match arg.toList, rest with
      | ['-'], _ | ['-', 'i'], _ => EnvTask.of fuel { environment := [], argv := rest }
      | ['-', '-'], _ => .ok { task with argv := rest }
      | ['-', 'u'], name :: rest =>
        EnvTask.of fuel
          { environment := task.environment.filter (·.1 ≠ name), argv := rest }
      | '-' :: c :: _, _ => .error c
      | _, _ =>
        match arg.toList.dropWhile (· ≠ '=') with
        | [] => .ok task
        | _equals :: value =>
          let name := Builtin.nameOf arg
          let others := task.environment.filter (·.1 ≠ name)
          EnvTask.of fuel
            { environment := others ++ [(name, String.ofList value)], argv := rest }

mutual

/-- Run a command. -/
def exec : Nat → Cmd → State → State × Flow
  | 0, _, st => (st, .exhausted)
  | fuel + 1, cmd, st =>
    if st.has Switch.readOnly then (st, .next) else
    let run : Collector := fun line source st => collect fuel line source st
    let ask (test : Cmd) (st : State) : State × Flow :=
      let (after, flow) := exec fuel test { st with asked := true }
      ({ after with asked := st.asked }, flow)
    match cmd with
    | .nothing => (st, .next)
    | .simple line values words rs =>
      match (allFields run words).run { st with line, substituted := none } with
      | (.error message, st) => st.abort message 2
      | (.ok args, st) =>
        match (targets run rs).run st with
        | (.error message, st) => st.abort message 2
        | (.ok rs, st) =>
          if rs.any Redirect.isUnreadable then st.abort "Syntax error: Bad fd number" 2
          else strictly (attend fuel (simpleCommand fuel st values args rs))
    | .redirected line body rs =>
      match (targets run rs).run { st with line } with
      | (.error message, st) => st.abort message 2
      | (.ok rs, st) =>
        if rs.any Redirect.isUnreadable then st.abort "Syntax error: Bad fd number" 2
        else match body, st.redirectAll rs with
          | .subshell body, _ => apart fuel st rs body
          | _, .error message => strictly (st.fail message 2)
          | body, .ok inner =>
            let (inner, flow) := exec fuel body inner
            (inner.undo st rs, flow)
    | .seq first second =>
      match exec fuel first st with
      | (st, .next) => exec fuel second st
      | ended => ended
    | .both first second =>
      match ask first st with
      | (st, .next) => if st.status = 0 then exec fuel second st else (st, .next)
      | ended => ended
    | .either first second =>
      match ask first st with
      | (st, .next) => if st.status = 0 then (st, .next) else exec fuel second st
      | ended => ended
    | .negate body =>
      match ask body st with
      | (st, .next) => st.go (if st.status = 0 then 1 else 0)
      | ended => ended
    | .subshell body => apart fuel st [] body
    | .lastly body =>
      let (after, flow) := exec fuel body { st with isLast := true }
      ({ after with isLast := st.isLast }, flow)
    | .background body =>
      let copy := { st.copy with
        input := [], blocked := st.blocked.union SignalSet.interrupts }
      let job := copy.self
      let (copy, flow) := leaveShell fuel (exec fuel body.ending copy)
      let after := st.afterCopy copy
      match flow with
      | .exhausted => (after, .exhausted)
      | flow =>
        let status := match flow with
          | .killed signal => .signaled signal false
          | _ => .exited copy.status
        attend fuel ({ after with status := 0, job := some (job, status) }, .next)
    | .pipe first second =>
      let writer := { st.copy.point 1 .collected with collected := [] }
      let (one, flow) := leaveShell fuel (exec fuel first.ending writer)
      let input := (Text.Utf8.decodeLossy one.collected.reverse.flatten).toList
      let between := st.afterCopy { one with collected := st.collected, input := st.input }
      match flow, second with
      | .exhausted, _ => (between, .exhausted)
      | flow, second =>
        let between := match flow with
          | .killed signal => between.reap (.signaled signal false)
          | _ => between
        match second with
        | .pipe .. =>
          let (two, flow) := exec fuel second { between with input }
          ({ two with input := st.input }, flow)
        | second =>
          let (two, flow) := leaveShell fuel
            (exec fuel second.ending { between.copy with input })
          attend fuel (afterCopy between ({ two with input := st.input }, flow))
    | .define name body => ({ st with functions := (name, body) :: st.functions }).go 0
    | .cond test yes no =>
      match ask test st with
      | (st, .next) =>
        if st.status = 0 then exec fuel yes st
        else match no with
          | .nothing => st.go 0
          | no => exec fuel no st
      | ended => ended
    | .forEach line name values body =>
      let found : Except String (List String) × State := match values with
        | none => (.ok st.params, st)
        | some ws => (allFields run ws).run { st with line }
      match found with
      | (.error message, st) => st.abort message 2
      | (.ok fields, st) =>
        let (after, flow) := each fuel name body fields
          { st.withStatus 0 with loops := st.loops + 1 }
        ({ after with loops := st.loops }, flow)
    | .loop until_ test body =>
      match ask test { st with loops := st.loops + 1 } with
      | (inner, .next) =>
        if (inner.status = 0) = !until_ then
          let (after, flow) := exec fuel body inner
          match afterRound flow with
          | none => exec fuel cmd { after with loops := st.loops }
          | some flow => ({ after with loops := st.loops }, flow)
        else ({ inner with loops := st.loops }).go 0
      | (inner, flow) =>
        match afterRound flow with
        | none => exec fuel cmd { inner with loops := st.loops }
        | some flow => ({ inner with loops := st.loops }, flow)
    | .choose line subject arms =>
      match (textOf run subject).run { st with line } with
      | (.ok text, st) => choose fuel text.toList arms st
      | (.error message, st) => st.abort message 2

/-- Run a command in a copy of the shell, with redirections that are the copy's. -/
def apart : Nat → State → List (Redirect String) → Cmd → State × Flow
  | 0, st, _, _ => (st, .exhausted)
  | fuel + 1, st, rs, body =>
    match st.copy.redirectAll rs with
    | .error message => attend fuel (afterCopy st (st.copy.fail message 2))
    | .ok copy =>
      let (copy, flow) := leaveShell fuel (exec fuel body.ending copy)
      attend fuel (afterCopy st (copy.undo st.copy rs, flow))

/-- Run a body once for each value of a variable. -/
def each : Nat → String → Cmd → List String → State → State × Flow
  | 0, _, _, _, st => (st, .exhausted)
  | _ + 1, _, _, [], st => (st, .next)
  | fuel + 1, name, body, value :: rest, st =>
    match st.tryAssign name value with
    | .error message => st.abort message 2
    | .ok st =>
      let (st, flow) := exec fuel body st
      match afterRound flow with
      | none => each fuel name body rest st
      | some flow => (st, flow)

/-- Run the first arm one of whose patterns fits. -/
def choose : Nat → List Char → List (List Word × Cmd) → State → State × Flow
  | 0, _, _, st => (st, .exhausted)
  | _ + 1, _, [], st => st.go 0
  | fuel + 1, text, (patterns, body) :: rest, st =>
    match (anyFits fuel text patterns).run st with
    | (.error message, st) => st.abort message 2
    | (.ok true, st) => exec fuel body (st.withStatus 0)
    | (.ok false, st) => choose fuel text rest st

/-- Whether a text fits one of some patterns. Those behind the first that fits are not expanded. -/
def anyFits : Nat → List Char → List Word → Expanding Bool
  | 0, _, _ => return false
  | _ + 1, _, [] => return false
  | fuel + 1, text, pattern :: rest => do
    let w := (← get).fromHome pattern
    let m ← flat (fun line source st => collect fuel line source st) w
    if m.fits text then return true else anyFits fuel text rest

/-- Run a text in a copy of the shell and collect what it writes. -/
def collect : Nat → Nat → List Char → State → List Char × State
  | 0, _, _, st => ([], st)
  | fuel + 1, line, source, st =>
    let copy := { st.copy.point 1 .collected with collected := [] }
    let p := (Reader.program line source).ending
    let (copy, flow) := leaveShell fuel (perform fuel p copy)
    let after := { copy with collected := st.collected }
    let (after, _) := afterCopy { st with asked := true } (after, flow)
    (outputText copy.collected,
      { after with asked := st.asked, status := st.status, substituted := some after.status })

/-- Run commands in order, up to a complaint about those behind them. The lines that they were read
from are numbered. -/
def commands : Nat → List (Nat × List Char) → List (Nat × Cmd) → Option (Nat × String) → State →
    State × Flow
  | 0, _, _, _, st => (st, .exhausted)
  | _ + 1, lines, [], none, st => (echoLines st (lines.map (·.2)), .next)
  | _ + 1, lines, [], some (line, message), st =>
    let st := echoLines st (lines.map (·.2))
    { st with line }.abort message 2
  | fuel + 1, lines, (last, cmd) :: rest, complaint, st =>
    let isRead (line : Nat × List Char) : Bool := line.1 ≤ last
    let st := echoLines st ((lines.takeWhile isRead).map (·.2))
    match exec fuel cmd st with
    | (st, .next) => commands fuel (lines.dropWhile isRead) rest complaint st
    | ended => ended

/-- Run a text, whose first line has a number, in the shell itself. -/
def evaluate : Nat → Nat → List Char → State → State × Flow
  | 0, _, _, st => (st, .exhausted)
  | fuel + 1, line, source, st => perform fuel (Reader.program line source) st

/-- Run what has been read of a text. -/
def perform : Nat → Program → State → State × Flow
  | 0, _, st => (st, .exhausted)
  | fuel + 1, p, st =>
    if p.commands.isEmpty && p.complaint.isNone then st.go 0
    else commands fuel [] p.commands p.complaint st

/-- Take in the signals that have arrived, and do what the script asks for about them. -/
def attend : Nat → State × Flow → State × Flow
  | 0, after => after
  | fuel + 1, (st, .next) =>
    match st.heed with
    | (st, .next) =>
      match st.caught with
      | [] => (st, .next)
      | signal :: rest =>
        let st := { st with caught := rest }
        match evaluate fuel 1 ((st.traps.lookup signal).getD "").toList st with
        | (after, .next) => attend fuel (after.withStatus st.status, .next)
        | ended => ended
    | ended => ended
  | _ + 1, ended => ended

/-- Do what the script asks for at the end of a shell. -/
def leaveShell : Nat → State × Flow → State × Flow
  | 0, after => after
  | fuel + 1, (st, flow) =>
    match flow, st.traps.lookup 0 with
    | .killed _, _ | .exhausted, _ | _, none => (st, flow)
    | flow, some action =>
      let st := { st with traps := st.traps.filter (·.1 ≠ 0) }
      match evaluate fuel 1 action.toList st with
      | (after, .next) | (after, .returns) => (after.withStatus st.status, flow)
      | ended => ended

/-- Run a simple command whose words are expanded. -/
def simpleCommand : Nat → State → List (String × Word) → List String → List (Redirect String) →
    State × Flow
  | 0, st, _, _, _ => (st, .exhausted)
  | fuel + 1, st, values, args, rs =>
    let run : Collector := fun line source st => collect fuel line source st
    let isSpecial := args.head?.any specialBuiltins.contains
    match st.redirectAll rs with
    | .error message => if isSpecial then st.abort message 2 else st.fail message 2
    | .ok inner =>
      match (assignments run values).run inner with
      | (.error message, inner) => inner.abort message 2
      | (.ok values, inner) =>
        let inner := trace inner st.err values args
        let names := values.map (·.1)
        let handed := { inner with exported := names ++ inner.exported }
        match args with
        | [] => (inner.undo st rs).go (inner.substituted.getD 0)
        | ["exec"] => inner.go 0
        | "exec" :: name :: rest => become fuel handed name rest
        | name :: rest =>
          if isSpecial then
            let (after, flow) := special fuel inner true name rest
            (after.undo st rs, flow)
          else
            let (after, flow) := ordinary fuel handed name rest
            let restored := values.foldl (fun after v =>
              after.restore (v.1, st.bindings.lookup v.1)) after
            let exported := names.filter st.exported.contains ++
              after.exported.filter fun name => !names.contains name
            ({ restored.undo st rs with exported }, flow)

/-- Run a program in place of the shell. -/
def become : Nat → State → String → List String → State × Flow
  | 0, st, _, _ => (st, .exhausted)
  | fuel + 1, st, name, args =>
    match runProgram fuel true st name args with
    | .ok e =>
      let st := st.absorb e
      match e.status with
      | .exited code => ({ st with traps := [] }.withStatus code.toNat, .exit)
      | .signaled signal _ => (st, .killed signal)
    | .error e =>
      { st with within := some "exec" }.abort s!"{name}: {refusedText e}" (refusedStatus e)

/-- Run a special built-in command. Its failure ends the shell if that is asked for. -/
def special : Nat → State → Bool → String → List String → State × Flow
  | 0, st, _, _, _ => (st, .exhausted)
  | fuel + 1, st, ending, name, args =>
    let refuse (message : String) : State × Flow :=
      Builtin.run st name ending (fun _ _ => throw message) args
    match name, args with
    | "eval", args =>
      let source := (" ".intercalate args).toList
      let inner := { st with within := some name, isLast := false }
      let (after, flow) := evaluate fuel 1 source inner
      ({ after with within := st.within }, flow)
    | ".", [] => st.go 0
    | ".", file :: _ =>
      match sourceFile st file with
      | .error message => refuse message
      | .ok path =>
        match sourceText st path with
        | .error message => refuse message
        | .ok text =>
          let inner := { st with within := some path, isLast := false }
          let (after, flow) := evaluate fuel 1 text inner
          ({ after with within := st.within }, if flow matches .returns then .next else flow)
    | "exec", [] => st.go 0
    | "exec", name :: args => become fuel st name args
    | name, args =>
      match Builtin.find? name with
      | some builtin => Builtin.run st name ending builtin args
      | none => st.go 0

/-- Run a function, a built-in command that is not special, or a program. -/
def ordinary : Nat → State → String → List String → State × Flow
  | 0, st, _, _ => (st, .exhausted)
  | fuel + 1, st, name, args =>
    match st.functions.lookup name with
    | some body =>
      if st.calls ≥ maxCalls then
        st.abort s!"Maximum function recursion depth ({maxCalls}) reached" 2
      else
        let inner := { st with
          params := args, locals := [], loops := 0, calls := st.calls + 1, isLast := false }
        match exec fuel body inner with
        | (after, .returns) => (afterCall st after, .next)
        | (after, flow) => (afterCall st after, flow)
    | none => if name = "command" then plain fuel st args else direct fuel st name args

/-- Run a command without regard to functions, or tell about one. -/
def plain : Nat → State → List String → State × Flow
  | 0, st, _ => (st, .exhausted)
  | fuel + 1, st, args =>
    match Plain.of args with
    | .error message => Builtin.run st "command" false (fun _ _ => throw message) args
    | .ok (.tell described names) =>
      Builtin.run st "command" false (fun st _ => return tellNames st described names) args
    | .ok (.run []) => st.go 0
    | .ok (.run (name :: args)) =>
      if name = "command" then plain fuel st args
      else if specialBuiltins.contains name then special fuel st false name args
      else direct fuel st name args

/-- Run a built-in command that is not special, or a program. -/
def direct : Nat → State → String → List String → State × Flow
  | 0, st, _, _ => (st, .exhausted)
  | fuel + 1, st, name, args =>
    match Builtin.find? name, st.findProgram name with
    | some builtin, _ => Builtin.run st name false builtin args
    | none, found =>
      match runProgram fuel st.givesPlace st name args with
      | .ok e =>
        match st.givesPlace, e.status with
        | true, .signaled signal _ => (st.absorb e, .killed signal)
        | _, status => ((st.absorb e).reap status, .next)
      | .error e =>
        let isLost := !name.contains '/' && !found.isOk
        st.fail s!"{name}: {refusedText e}" (if isLost then 127 else refusedStatus e)

/-- Find a program and run it on behalf of a shell, or in its place. What is no program in itself
is read by the shell. -/
def runProgram : Nat → Bool → State → String → List String → Except Errno Ended
  | 0, _, _, _, _ => .error .argumentsTooLong
  | fuel + 1, inPlace, st, name, args => do
    let path ← st.findProgram name
    let start : Start := { file := [], name := path, argv := name :: args, blocked := st.deaf }
    let (pid, parents) :=
      if inPlace then (st.self, st.ancestors) else (st.self + 1, st.self :: st.ancestors)
    let launch : Launch := {
      start, pid, parents, cwd := st.cwd
      environment := st.environment, input := st.input
      refused := fun s => (st.sinkFor s).refusal? }
    match openProgram fuel 0 launch st.files with
    | .error e =>
      if e = .notExecutableFormat then
        let argv := Machine.systemShell :: path :: args
        openProgram fuel 0
          { launch with start := { start with name := Machine.systemShell, argv } } st.files
      else .error e
    | ran => ran

/-- Open the file that a program is started from, below some interpreters. -/
def openProgram : Nat → Nat → Launch → Files → Except Errno Ended
  | 0, _, l, fs => .ok (l.exhausted fs)
  | fuel + 1, depth, l, fs =>
    match fs.find l.cwd ⟨l.start.name⟩ with
    | .ok (file, .file _ true) =>
      runFile fuel depth { l with start := { l.start with file } } fs
    | .ok _ => .error .accessDenied
    | .error (.system e) => .error e
    | .error _ => .error .noEntry

/-- Run an open file: a utility, or a script for the interpreter that its first line names. -/
def runFile : Nat → Nat → Launch → Files → Except Errno Ended
  | 0, _, l, fs => .ok (l.exhausted fs)
  | fuel + 1, depth, l, fs =>
    if depth > Launch.maxInterpreters then .error .tooManyLinks
    else if l.isTooLong then .error .argumentsTooLong
    else match Utility.at? l.start.file, fs.get? l.start.file with
      | some utility, _ => runUtility fuel utility l fs
      | none, some (.file content _) =>
        match FirstLine.ofContent? content with
        | none => .error .notExecutableFormat
        | some first =>
          if first.interpreter.isEmpty then .error .accessDenied
          else
            let argv :=
              first.interpreter :: first.argument.toList ++ l.start.name :: l.start.argv.drop 1
            let start := { l.start with name := first.interpreter, argv }
            openProgram fuel (depth + 1) { l with start } fs
      | none, _ => .error .accessDenied

/-- Run a utility. -/
def runUtility : Nat → Utility → Launch → Files → Except Errno Ended
  | 0, _, l, fs => .ok (l.exhausted fs)
  | fuel + 1, utility, l, fs =>
    match utility with
    | .shell => .ok (runShell fuel l fs)
    | .env => .ok (runEnv fuel l fs)
    | utility => .ok (utility.run l fs)

/-- Run a shell to its end. -/
def runShell : Nat → Launch → Files → Ended
  | 0, l, fs => l.exhausted fs
  | fuel + 1, l, fs =>
    match Task.of l fs with
    | .error message => l.finish fs 2 [s!"0: {message}"]
    | .ok task =>
      let p := Reader.program 1 task.text
      let lines := Text.splitAfter (· == '\n') task.text
      let numbered := (List.range lines.length).map (· + 1) |>.zip lines
      match leaveShell fuel
          (commands fuel numbered p.commands p.complaint (State.initial l fs task)) with
      | (st, .exhausted) => st.ended (.signaled timeExceeded false)
      | (st, .killed signal) => st.ended (.signaled signal false)
      | (st, _) => st.ended (.exited (st.status % 256))

/-- Run a program in an environment that is told, or tell the environment. -/
def runEnv : Nat → Launch → Files → Ended
  | 0, l, fs => l.exhausted fs
  | fuel + 1, l, fs =>
    match EnvTask.of l.args.length.succ { environment := l.environment, argv := l.args } with
    | .error c => l.misuse fs 125 s!"invalid option -- '{c}'"
    | .ok { environment, argv := [] } =>
      let lines := environment.map fun v => (Stream.output, Text.Utf8.encode s!"{v.1}={v.2}\n")
      { l.finish fs 0 [] with written := lines }.delivered l 125
    | .ok { environment, argv := name :: args } =>
      let launch := { l with environment }
      let attempt (path : String) : Except Errno Ended :=
        let start := { l.start with name := path, argv := name :: args }
        match openProgram fuel 0 { launch with start } fs with
        | .error e =>
          if e = .notExecutableFormat then
            let argv := Machine.systemShell :: path :: args
            openProgram fuel 0
              { launch with start := { start with name := Machine.systemShell, argv } } fs
          else .error e
        | ran => ran
      match SearchPath.firstOf attempt ((environment.lookup "PATH").getD usualPath) name with
      | .ok e => e
      | .error e =>
        let hint := if e = .noEntry && name.contains ' ' then
          ["use -[v]S to pass options in shebang lines"] else []
        l.finish fs (if e = .noEntry then 127 else 126) (s!"'{name}': {e.description}" :: hint)

end

/-! ## Running a program for the tool -/

/-- What is the same for every program that the tool starts. -/
structure Setting where
  cwd : WorkingDir
  environment : List (String × String)
  tool : Nat

/-- The number of steps a program is given. -/
def steps : Nat := 1000000

/-- Open an executable file as a program and run it to its end. -/
def execute (s : Setting) (start : Start) (fs : Files) : Except Errno Outcome := do
  let launch : Launch := {
    start, pid := s.tool + 1, parents := [s.tool], cwd := s.cwd, environment := s.environment }
  let e ← runFile steps 0 launch fs
  return {
    status := e.status, files := e.files, written := e.written
    sent := (e.sent.filter (·.1 = s.tool)).map (·.2) }

end CxxScript.Shell

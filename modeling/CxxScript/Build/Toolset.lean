import CxxScript.Build.Record
import CxxScript.Build.Scan

/-!
# The compiler and its flags

A toolset holds the flags that every command of a build shares and finds the compiler when it is
first needed: the one that was set explicitly, else the one that a unit asks for, else the one that
an earlier run remembered, else the first candidate that compiles a small program of the language
standard. The choice is made once. A unit asks for a compiler by a pseudo-flag, which is taken out
wherever flags are pushed.
-/

set_option autoImplicit false

namespace CxxScript

/-- Why a compiler or linker did not do its work. -/
inductive BuildToolError where
  | noCompiler
  | emptyCompiler
  | failed (command : String) (status : ExitStatus)
  | nothingToLink
  | process (cause : ProcessError)
  | unit (cause : UnitError)
  deriving DecidableEq, Repr

/-- Where pushed flags go: before all others, behind them, or behind everything of a compile
command. -/
inductive FlagPosition where
  | early
  | normal
  | late
  deriving DecidableEq, Repr

/-- The compiler and the flags that the commands of a build share. -/
structure Toolset where
  config : Config
  /-- The compiler that a unit asks for. -/
  asked? : Option String := none
  /-- The words of the compiler command, once it is chosen. -/
  chosen? : Option (List String) := none
  flags : List String := []
  lateFlags : List String := []
  deriving DecidableEq, Repr

namespace Toolset

/-- The compilers that are tried, in order, where nothing names one. -/
def candidates : List String := ["g++", "clang++", "c++"]

/-- The flag for the language standard. -/
def languageStandard : String := "-std=c++11"

/-- The program that a usable compiler compiles. -/
def probeProgram : String :=
  "#include <memory>\nint main()\n\x7b\n" ++
  "    auto p = std::unique_ptr<int>\x7bnew int\x7b0\x7d\x7d;\n" ++
  "    auto deref = [&]()\x7b return *p; \x7d;\n    return deref();\n\x7d\n"

end Toolset

/-- The text of a build tool error. -/
def BuildToolError.message : BuildToolError → String
  | .noCompiler =>
    "cannot auto-detect a C++11 compiler (tried " ++ ", ".intercalate Toolset.candidates ++ ")"
  | .emptyCompiler => "compiler command is empty"
  | .failed command status => "`" ++ command ++ "` failed (" ++ status.text ++ ")"
  | .nothingToLink => "nothing to link"
  | .process cause => cause.message
  | .unit cause => cause.message

namespace Toolset

/-- The toolset for a configuration: debugging information where a debugger is set, the
optimization level last. -/
def ofConfig (cfg : Config) : Toolset where
  config := cfg
  flags := if cfg.debugger.isSome then ["-g"] else []
  lateFlags := cfg.optimization.toList.map fun level => "-O" ++ level

/-- The compiler that a pseudo-flag asks for. -/
def askedBy? (flag : String) : Option String :=
  if compilerFlag.toList.isPrefixOf flag.toList then
    some (String.ofList (flag.toList.drop compilerFlag.length))
  else none

/-- Take note of a compiler that is asked for, unless it is too late or was set explicitly. -/
def ask (ts : Toolset) (compiler : String) : StateM Host Toolset := do
  if ts.config.cxx.isSome then
    Host.note (.overrideIgnored compiler)
    return ts
  else if ts.chosen?.isSome then
    Host.warn (.overrideTooLate compiler)
    return ts
  else return { ts with asked? := some compiler }

/-- Put one flag in its place. -/
def insert (ts : Toolset) (flag : String) : FlagPosition → Toolset
  | .early => { ts with flags := flag :: ts.flags }
  | .normal => { ts with flags := ts.flags ++ [flag] }
  | .late => { ts with lateFlags := ts.lateFlags ++ [flag] }

/-- Put a run of flags in its place, unless it is there already. -/
def insertRun (ts : Toolset) (run : List String) : FlagPosition → Toolset
  | .early => if Flags.hasRun run ts.flags then ts else { ts with flags := run ++ ts.flags }
  | .normal => { ts with flags := (Flags.pushUnique ts.flags run).1 }
  | .late => { ts with lateFlags := (Flags.pushUnique ts.lateFlags run).1 }

/-- Push one flag. -/
def pushFlag (ts : Toolset) (flag : String) (position : FlagPosition) : StateM Host Toolset :=
  match askedBy? flag with
  | some compiler => ts.ask compiler
  | none => return ts.insert flag position

/-- The flags of a run that are meant for a command. -/
def realFlags (run : List String) : List String := run.filter fun flag => (askedBy? flag).isNone

/-- Push a run of flags. -/
def pushFlags (ts : Toolset) (run : List String) (position : FlagPosition) :
    StateM Host Toolset := do
  let ts ← (run.filterMap askedBy?).foldlM ask ts
  return ts.insertRun (realFlags run) position

/-- Whether a compiler cache answers. -/
def findCache (m : Machine) : StateM Host Bool := do
  match ← Host.capture m { program := "ccache", args := ["--version"], discardStderr := true } with
  | .ok (status, _) =>
    if status.success then return true
    Host.warn .noCompilerCache
    return false
  | .error _ =>
    Host.warn .noCompilerCache
    return false

/-- The command that compiles the probe. -/
def probeCommand (compiler : String) (probe object : Path) : Command where
  program := compiler
  args := [languageStandard, "-c", probe.text, "-o", object.text]
  discardStderr := true

/-- Whether a compiler compiles the probe. -/
def isUsable (m : Machine) (root : Path) (compiler : String) : StateM Host Bool := do
  match ← Host.makeDirectories m root with
  | .error cause =>
    Host.warn (.cannotCreate root cause)
    return false
  | .ok () =>
    let probe := root.join ⟨"cxx11check.cpp"⟩
    match ← Host.write m probe (Text.Utf8.encode probeProgram) with
    | .error cause =>
      Host.warn (.cannotWrite probe cause)
      return false
    | .ok () =>
      let object := probe.withExtension "o"
      let usable := match ← Host.capture m (probeCommand compiler probe object) with
        | .ok (status, _) => status.success
        | .error _ => false
      let _ ← Host.remove m object
      Host.note (.probing compiler usable)
      return usable

/-- The first compiler that compiles the probe. -/
def firstUsable (m : Machine) (root : Path) : List String → StateM Host (Option String)
  | [] => return none
  | compiler :: rest => do
    if ← isUsable m root compiler then return some compiler
    firstUsable m root rest

/-- Look for a compiler and remember the one that is found. -/
def probe (m : Machine) (root : Path) : StateM Host (Except BuildToolError (List String)) := do
  let ccache ← findCache m
  match ← firstUsable m root candidates with
  | none => return .error .noCompiler
  | some compiler =>
    let record : ToolchainRecord := { compiler, ccache, createdAt := .ofNat m.time }
    if let .error cause ← record.store m root then
      Host.warn (.choiceNotRemembered cause.message)
    return .ok record.words

/-- A command has at least one word. -/
def nonEmpty (words : List String) : Except BuildToolError (List String) :=
  if words.isEmpty then .error .emptyCompiler else .ok words

/-- Choose the words of the compiler command. -/
def resolve (m : Machine) (ts : Toolset) : StateM Host (Except BuildToolError (List String)) := do
  match ts.config.cxx, ts.asked? with
  | some explicit, _ => return nonEmpty (Text.Words.split explicit)
  | none, some asked =>
    let ccache ← findCache m
    return nonEmpty (ToolchainRecord.launcherWords ccache ++ Text.Words.split asked)
  | none, none =>
    match ← ToolchainRecord.lookup m ts.config.cacheRoot with
    | some record => return nonEmpty record.words
    | none => probe m ts.config.cacheRoot

/-- The words of the compiler command, chosen on first use. -/
def compiler (m : Machine) (ts : Toolset) :
    StateM Host (Except BuildToolError (List String) × Toolset) := do
  match ts.chosen? with
  | some words => return (.ok words, ts)
  | none =>
    match ← resolve m ts with
    | .error e => return (.error e, ts)
    | .ok words =>
      Host.note (.usingCompiler words)
      return (.ok words, { ts with chosen? := some words })

/-- The compiler command with the language standard. -/
def base (m : Machine) (ts : Toolset) :
    StateM Host (Except BuildToolError Command × Toolset) := do
  match ← ts.compiler m with
  | (.error e, ts) => return (.error e, ts)
  | (.ok words, ts) =>
    match Command.ofWords? words with
    | none => return (.error .emptyCompiler, ts)
    | some c => return (.ok (c.withArgs [languageStandard]), ts)

/-- What a compile command says behind the language standard. -/
def compileArgs (ts : Toolset) (u : CompilationUnit) (object : Path) : List String :=
  ["-c", u.processedPath.text, "-o", object.text] ++ ts.flags ++ u.privateFlags ++ ts.lateFlags

/-- What a link command says behind the language standard. -/
def linkArgs (ts : Toolset) (executable : Path) (objects : List Path) : List String :=
  ["-o", executable.text] ++ objects.map Path.text ++ ts.flags

/-- The command that compiles a unit. -/
def compileCommand (m : Machine) (ts : Toolset) (u : CompilationUnit) :
    StateM Host (Except BuildToolError Command × Toolset × CompilationUnit) := do
  match ← u.object m ts.config with
  | (.error cause, u) => return (.error (.unit cause), ts, u)
  | (.ok object, u) =>
    match ← ts.base m with
    | (.error e, ts) => return (.error e, ts, u)
    | (.ok c, ts) => return (.ok (c.withArgs (ts.compileArgs u object)), ts, u)

/-- The objects of the sources among some units, in order. -/
def objects (m : Machine) (cfg : Config) : List CompilationUnit →
    StateM Host (Except UnitError (List Path) × List CompilationUnit)
  | [] => return (.ok [], [])
  | u :: rest => do
    if u.isHeader then
      let (paths, rest) ← objects m cfg rest
      return (paths, u :: rest)
    match ← u.object m cfg with
    | (.error cause, u) => return (.error cause, u :: rest)
    | (.ok path, u) =>
      let (paths, rest) ← objects m cfg rest
      return (paths.map (path :: ·), u :: rest)

/-- The executable and the objects for a link: the executable is that of the first source. -/
def linkPlaces (m : Machine) (cfg : Config) : List CompilationUnit →
    StateM Host (Except BuildToolError (Path × List Path) × List CompilationUnit)
  | [] => return (.error .nothingToLink, [])
  | u :: rest => do
    if u.isHeader then
      let (places, rest) ← linkPlaces m cfg rest
      return (places, u :: rest)
    match ← u.executable m cfg with
    | (.error cause, u) => return (.error (.unit cause), u :: rest)
    | (.ok executable, u) =>
      match ← objects m cfg (u :: rest) with
      | (.error cause, units) => return (.error (.unit cause), units)
      | (.ok paths, units) => return (.ok (executable, paths), units)

/-- The command that links the sources among some units, and the executable it makes. -/
def linkCommand (m : Machine) (ts : Toolset) (units : List CompilationUnit) :
    StateM Host (Except BuildToolError (Command × Path) × Toolset × List CompilationUnit) := do
  match ← linkPlaces m ts.config units with
  | (.error e, units) => return (.error e, ts, units)
  | (.ok (executable, paths), units) =>
    match ← ts.base m with
    | (.error e, ts) => return (.error e, ts, units)
    | (.ok c, ts) =>
      return (.ok (c.withArgs (ts.linkArgs executable paths), executable), ts, units)

/-- Run a command that has to succeed. -/
def perform (m : Machine) (c : Command) : StateM Host (Except BuildToolError Unit) := do
  match ← Host.run m c with
  | .error cause => return .error (.process cause)
  | .ok status =>
    if status.success then return .ok () else return .error (.failed c.text status)

/-- Compile a unit. -/
def compile (m : Machine) (ts : Toolset) (u : CompilationUnit) :
    StateM Host (Except BuildToolError Unit × Toolset × CompilationUnit) := do
  match ← ts.compileCommand m u with
  | (.error e, ts, u) => return (.error e, ts, u)
  | (.ok c, ts, u) => return (← perform m c, ts, u)

/-- Link the sources among some units. -/
def link (m : Machine) (ts : Toolset) (units : List CompilationUnit) :
    StateM Host (Except BuildToolError Path × Toolset × List CompilationUnit) := do
  match ← ts.linkCommand m units with
  | (.error e, ts, units) => return (.error e, ts, units)
  | (.ok (c, executable), ts, units) =>
    match ← perform m c with
    | .error e => return (.error e, ts, units)
    | .ok () => return (.ok executable, ts, units)

end Toolset

end CxxScript

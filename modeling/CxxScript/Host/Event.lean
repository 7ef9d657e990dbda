import CxxScript.Host.Process
import CxxScript.Source.Diagnostic
import CxxScript.Text.Utf8
import CxxScript.Text.Visible

/-!
# What a run leaves behind to be read

Everything the tool and its children write, in order. What the tool says about its own work is kept
as data, a `Note` for each step and a `Warning` for each thing that went wrong without stopping the
work, and becomes text only when it is shown. So "no compiler was started" is a statement about
notes. How much is shown is the verbosity.
-/

set_option autoImplicit false

namespace CxxScript

/-- One step of the work. -/
inductive Note where
  | running (command : Command)
  | runningAs (program : Path) (argv : List String)
  | discarded (signal : Signal)
  | reraising (signal : Signal)
  | relocated (path place : Path)
  | scanning (path : Path)
  | sourcing (path : Path)
  | copying (path copy : Path)
  | discovered (path : Path)
  | removed (path : Path)
  | notRemoved (path : Path) (cause : IoError)
  | cachedToolchain (record : Path)
  | overrideIgnored (compiler : String)
  | usingCompiler (words : List String)
  | probing (compiler : String) (usable : Bool)
  | executableWritten (path : Path)
  | launching (path : Path) (launcher : String)
  | finished (status : ExitStatus)
  deriving DecidableEq, Repr

/-- What a note says. -/
def Note.message : Note → String
  | .running command => s!"running: {command.text}"
  | .runningAs program argv => s!"running {program.text} as: {Text.Words.join argv}"
  | .discarded _ => "discarded pending signal"
  | .reraising _ => "re-raising child termination signal"
  | .relocated .. => "natural location not writable"
  | .scanning path => s!"scanning {path.text}"
  | .sourcing path => s!"sourcing {path.text}"
  | .copying path copy => s!"rewriting {path.text} -> {copy.text}"
  | .discovered path => s!"auto-discovered: {path.text}"
  | .removed path => s!"removed {path.text}"
  | .notRemoved path cause => s!"could not remove {path.text}: {cause.message}"
  | .cachedToolchain _ => "using cached toolchain"
  | .overrideIgnored compiler => s!"ignoring cxx: {compiler} (compiler set explicitly)"
  | .usingCompiler words => s!"using compiler: {Text.Words.join words}"
  | .probing compiler usable =>
    s!"probing {compiler}: " ++ if usable then "usable" else "unusable"
  | .executableWritten path => s!"executable written to {path.text}"
  | .launching path launcher => s!"launching {path.text} with {launcher}"
  | .finished status => s!"program finished: {status.text}"

/-- What is told about a note by name and value, behind what it says. -/
def Note.fields : Note → List (String × String)
  | .discarded signal | .reraising signal => [("signal", Text.quoted signal.name)]
  | .relocated path place => [("original", path.text), ("relocated", place.text)]
  | .cachedToolchain record => [("record", record.text)]
  | _ => []

/-- How a note reads. -/
def Note.text (n : Note) : String :=
  Text.visible n.message ++ String.join (n.fields.map fun f => " " ++ f.1 ++ "=" ++ f.2)

/-- One thing that went wrong without stopping the work. -/
inductive Warning where
  | unreadableRecord (record : Path)
  | packageUnavailable (path : Path) (line : Nat) (header package cause : String)
  | overrideTooLate (compiler : String)
  | choiceNotRemembered (cause : String)
  | cannotCreate (path : Path) (cause : IoError)
  | cannotWrite (path : Path) (cause : IoError)
  | noCompilerCache
  | badOption (text : String)
  deriving DecidableEq, Repr

/-- What a warning says. -/
def Warning.message : Warning → String
  | .unreadableRecord record =>
    s!"ignoring unreadable toolchain record {record.text}: it holds no choice of a compiler"
  | .packageUnavailable path line header package cause =>
    s!"{path.text}:{line}: <{header}> implies package {package} but it is unavailable: {cause}"
  | .overrideTooLate compiler =>
    s!"cxx: {compiler} seen after the compiler was already chosen; ignored"
  | .choiceNotRemembered cause => s!"could not remember toolchain choice: {cause}"
  | .cannotCreate path cause => s!"cannot create {path.text}: {cause.message}"
  | .cannotWrite path cause => s!"cannot write {path.text}: {cause.message}"
  | .noCompilerCache => "cannot auto-detect ccache (build will be slow)"
  | .badOption text => text

/-- How a warning reads. -/
def Warning.text (w : Warning) : String := Text.visible w.message

/-- One of the two streams a program writes to. -/
inductive Stream where
  | output
  | error
  deriving DecidableEq, Repr

/-- One thing that was written. -/
inductive Event where
  | bytes (stream : Stream) (content : Bytes)
  | note (n : Note)
  | warning (w : Warning)
  | diagnostic (d : Source.Diagnostic)
  deriving DecidableEq, Repr

/-- How much of its work the tool shows. -/
inductive Verbosity where
  | silent
  | warnings
  | steps
  deriving DecidableEq, Repr

namespace Event

/-- A line of text on a stream. -/
def line (stream : Stream) (text : String) : Event :=
  .bytes stream (Text.Utf8.encode (text ++ "\n"))

/-- What an event puts on standard output. -/
def onOutput : Event → Bytes
  | .bytes .output content => content
  | _ => []

/-- What an event puts on standard error. -/
def onError (v : Verbosity) : Event → Bytes
  | .bytes .error content => content
  | .bytes .output _ => []
  | .note n => if v = .steps then Text.Utf8.encode ("DEBUG " ++ n.text ++ "\n") else []
  | .warning w =>
    if v = .silent then [] else Text.Utf8.encode (" WARN " ++ w.text ++ "\n")
  | .diagnostic d => Text.Utf8.encode (d.text ++ "\n")

/-- Whether the event is the start of a program. -/
def isStart : Event → Bool
  | .note (.running _) | .note (.runningAs ..) => true
  | _ => false

end Event

end CxxScript

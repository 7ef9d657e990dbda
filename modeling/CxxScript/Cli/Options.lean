import CxxScript.Path.Basic

/-!
# The tool's own options

Every option of the tool begins with `--hbcxx-`, so it can stand anywhere on a command line. An
option either takes a value behind an equals sign or is a switch. A later occurrence overrides an
earlier one; the first option that is wrong is the one that is reported.
-/

set_option autoImplicit false

namespace CxxScript.Cli

/-- What every option of the tool begins with. -/
def optionStart : String := "--hbcxx-"

/-- Whether a text begins with another. -/
def startsWith (s start : String) : Bool := start.toList.isPrefixOf s.toList

/-- A text without the `n` characters at its start. -/
def dropStart (s : String) (n : Nat) : String := String.ofList (s.toList.drop n)

/-- The values that the options have. -/
structure Options where
  cxx : Option String := none
  debugger : Option String := none
  executable : Option Path := none
  help : Bool := false
  saveTemps : Bool := false
  optimization : Option String := none
  verbose : Bool := false
  version : Bool := false
  deriving DecidableEq, Repr

/-- What can be wrong with an option. -/
inductive OptionFault where
  | unknownArgument
  | noEquals
  | tooManyValues
  | invalidValue
  deriving DecidableEq, Repr

/-- An option that is wrong. -/
structure OptionError where
  fault : OptionFault
  token : String
  deriving DecidableEq, Repr

/-- The text of an option error. -/
def OptionError.message (e : OptionError) : String :=
  match e.fault with
  | .unknownArgument => s!"unexpected argument '{e.token}' found"
  | .noEquals => s!"equal sign is needed when assigning values to '{e.token}'"
  | .tooManyValues => s!"unexpected value in '{e.token}' found; no more were expected"
  | .invalidValue => s!"a value is required for '{e.token}' but none was supplied"

/-- The optimization level may be written right behind the `O`; the options themselves are written
with an equals sign. -/
def withEquals (arg : String) : String :=
  let start := "--hbcxx-O"
  if startsWith arg start then
    let level := dropStart arg start.length
    if startsWith level "=" then arg else start ++ "=" ++ level
  else arg

/-- The options that take a value. -/
inductive Valued where
  | cxx
  | debugger
  | executable
  | optimization
  deriving DecidableEq, Repr

/-- The options that are switches. -/
inductive Switch where
  | help
  | saveTemps
  | verbose
  | version
  deriving DecidableEq, Repr

/-- How the options with a value are written. -/
def valuedNames : List (String × Valued) := [
  ("--hbcxx-cxx", .cxx), ("--hbcxx-debugger", .debugger), ("--hbcxx-executable", .executable),
  ("--hbcxx-O", .optimization)]

/-- How the switches are written. -/
def switchNames : List (String × Switch) := [
  ("--hbcxx-help", .help), ("--hbcxx-save-temps", .saveTemps), ("--hbcxx-verbose", .verbose),
  ("--hbcxx-version", .version)]

/-- A token cut at its first equals sign. -/
def cutEquals (token : String) : String × Option String :=
  let name := token.toList.takeWhile (· ≠ '=')
  match token.toList.dropWhile (· ≠ '=') with
  | [] => (String.ofList name, none)
  | _ :: value => (String.ofList name, some (String.ofList value))

namespace Options

/-- Give an option its value. -/
def setValue (o : Options) (value : String) : Valued → Options
  | .cxx => { o with cxx := some value }
  | .debugger => { o with debugger := some value }
  | .executable => { o with executable := some ⟨value⟩ }
  | .optimization => { o with optimization := some value }

/-- Turn a switch on. -/
def turnOn (o : Options) : Switch → Options
  | .help => { o with help := true }
  | .saveTemps => { o with saveTemps := true }
  | .verbose => { o with verbose := true }
  | .version => { o with version := true }

/-- Read one more option. Only a path may not be empty. -/
def add (o : Options) (token : String) : Except OptionError Options :=
  let (name, value?) := cutEquals token
  match valuedNames.lookup name, switchNames.lookup name, value? with
  | some valued, _, some value =>
    if valued = .executable && value.isEmpty then .error ⟨.invalidValue, token⟩
    else .ok (o.setValue value valued)
  | some _, _, none => .error ⟨.noEquals, token⟩
  | none, some switch, none => .ok (o.turnOn switch)
  | none, some _, some _ => .error ⟨.tooManyValues, token⟩
  | none, none, _ => .error ⟨.unknownArgument, token⟩

/-- Read options in order. A double dash ends them, and nothing may stand behind it. -/
def addAll (o : Options) : List String → Except OptionError Options
  | [] => .ok o
  | token :: rest =>
    if token = "--" then
      match rest with
      | [] => .ok o
      | next :: _ => .error ⟨.unknownArgument, next⟩
    else do (← o.add token).addAll rest

/-- The values that a list of options gives. -/
def parse (tokens : List String) : Except OptionError Options := ({} : Options).addAll tokens

end Options

end CxxScript.Cli

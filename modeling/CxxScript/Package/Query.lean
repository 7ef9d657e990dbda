import CxxScript.Host.Spawn
import CxxScript.Package.Requirement

/-!
# Asking for packages

A requirement is first put to the query command as it stands, one argument, to learn whether it can
be met. Only then are the flags of its packages asked for, by name. A query command that cannot be
started meets no requirement.
-/

set_option autoImplicit false

namespace CxxScript.Package

/-- Why a requirement yields no flags. -/
inductive RequirementError where
  | missing (requirement output : String)
  | queryFailed (requirement output : String)
  | noCommand
  | process (cause : ProcessError)
  deriving DecidableEq, Repr

namespace RequirementError

/-- The text of a requirement error. -/
def message : RequirementError → String
  | .missing requirement _ => s!"package requirement not met: {requirement}"
  | .queryFailed requirement _ => s!"package query failed unexpectedly for: {requirement}"
  | .noCommand => "package query command is empty"
  | .process cause => cause.message

/-- What the query command had to say, if it said anything. -/
def output? : RequirementError → Option String
  | .missing _ output | .queryFailed _ output =>
    if output.toList.all Text.isBlank then none else some output
  | _ => none

end RequirementError

/-- Put a question to the query command; one that cannot be started answers the way a shell
would. -/
def query (m : Machine) (c : Command) :
    StateM Host (Except RequirementError (ExitStatus × String)) := do
  match ← Host.capture m c with
  | .ok answer => return .ok answer
  | .error (.spawn command cause) =>
    return .ok (.exited 127, (ProcessError.spawn command cause).message ++ "\n")
  | .error cause => return .error (.process cause)

/-- The question whether a requirement can be met. -/
def existsArgs (requirement : String) : List String :=
  ["--print-errors", "--exists", requirement]

/-- The question for the flags of the packages that a requirement names. -/
def flagsArgs (requirement : String) : List String :=
  ["--cflags", "--libs"] ++ Text.Words.split (strip requirement)

/-- The flags that a requirement adds to a build. -/
def flagsFor (m : Machine) (command requirement : String) :
    StateM Host (Except RequirementError (List String)) := do
  match Command.ofText? command with
  | none => return .error .noCommand
  | some base =>
    match ← query m (base.withArgs (existsArgs requirement)) with
    | .error e => return .error e
    | .ok (status, output) =>
      if !status.success then return .error (.missing requirement output)
      match ← query m (base.withArgs (flagsArgs requirement)) with
      | .error e => return .error e
      | .ok (status, output) =>
        if !status.success then return .error (.queryFailed requirement output)
        return .ok (Text.Words.split output)

end CxxScript.Package

import CxxScript.Host.Search
import CxxScript.Shell.State

/-!
# Looking up commands

A name may be a reserved word, a function, a command that is built into the shell, or else a program
that is looked for along the search path. `Meaning.of?` tells which of these it is.
-/

set_option autoImplicit false

namespace CxxScript.Shell

/-- The words that are part of the grammar. -/
def reservedWords : List String := [
  "!", "case", "do", "done", "elif", "else", "esac", "fi", "for", "if", "in", "then", "until",
  "while", "\x7b", "\x7d"]

/-- The built-in commands whose failure ends the shell. -/
def specialBuiltins : List String := [
  ".", ":", "break", "continue", "eval", "exec", "exit", "export", "local", "readonly", "return",
  "set", "shift", "times", "trap", "unset"]

/-- The other built-in commands. -/
def ordinaryBuiltins : List String := [
  "[", "alias", "cd", "chdir", "command", "echo", "false", "hash", "jobs", "kill", "printf", "pwd",
  "read", "test", "true", "type", "umask", "unalias", "wait"]

/-- Whether a command is built into the shell. -/
def isBuiltin (name : String) : Bool :=
  specialBuiltins.contains name || ordinaryBuiltins.contains name

namespace State

/-- The names under which a program is looked for. -/
def candidates (st : State) (name : String) : List String :=
  if name.contains '/' then [name]
  else (((st.bindings.lookup "PATH").getD "").splitOn ":").map (SearchPath.pathIn · name)

/-- The first place along the search path where a program stands, or why there is none. -/
def findProgram (st : State) (name : String) : Except Errno String :=
  let step (found : Except Errno String) (candidate : String) : Except Errno String :=
    match found, st.files.find st.cwd ⟨candidate⟩ with
    | .ok path, _ => .ok path
    | _, .ok (_, .file _ true) => .ok candidate
    | _, .ok _ => .error .accessDenied
    | .error before, .error (.system e) =>
      if e = .noEntry || e = .notDirectory then .error before else .error e
    | .error before, .error _ => .error before
  (st.candidates name).foldl step (.error .noEntry)

end State

/-- What a name means as a command. -/
inductive Meaning where
  | reserved
  | function
  | special
  | builtin
  | program (path : String)
  deriving DecidableEq, Repr

namespace Meaning

/-- What a name means as a command, if anything. A name with a slash in it means whatever stands at
that path. -/
def of? (st : State) (name : String) : Option Meaning :=
  if reservedWords.contains name then some .reserved
  else if (st.functions.lookup name).isSome then some .function
  else if specialBuiltins.contains name then some .special
  else if ordinaryBuiltins.contains name then some .builtin
  else if name.contains '/' then
    match st.files.find st.cwd ⟨name⟩ with
    | .ok _ => some (.program name)
    | .error _ => none
  else match st.findProgram name with
    | .ok path => some (.program path)
    | .error _ => none

/-- The description of what a name means. -/
def text (name : String) : Meaning → String
  | .reserved => s!"{name} is a shell keyword"
  | .function => s!"{name} is a shell function"
  | .special => s!"{name} is a special shell builtin"
  | .builtin => s!"{name} is a shell builtin"
  | .program path => s!"{name} is {path}"

/-- How a name can be called: a program by its path. -/
def short (name : String) : Meaning → String
  | .program path => path
  | _ => name

end Meaning

end CxxScript.Shell

/-!
# Shell scripts

The scripts that stand in for programs are read by a small POSIX shell. This module is the tree of
such a script: words made of parts, commands made of words. What a command substitution runs is kept
as text and read when it is run.
-/

set_option autoImplicit false

namespace CxxScript.Shell

/-- What is done with the value of a parameter: taken as it is, measured, replaced where it is
missing (or empty), set there for good, insisted on, or shortened by a pattern at one of its
ends. -/
inductive ParamUse where
  | value
  | length
  | orElse (whenEmpty : Bool)
  | orAssign (whenEmpty : Bool)
  | orComplain (whenEmpty : Bool)
  | ifSet (whenEmpty : Bool)
  | cut (atEnd longest : Bool)
  deriving DecidableEq, Repr

/-- A part of a word. What is quoted is neither split into fields nor read as a pattern. A command
comes with the number of its first line. A parameter that cannot be read is found out when the word
is expanded. -/
inductive Part where
  | text (quoted : Bool) (chars : List Char)
  | param (quoted : Bool) (name : String) (use : ParamUse) (operand : List Part)
  | arithmetic (quoted : Bool) (expression : List Part)
  | command (quoted : Bool) (line : Nat) (source : List Char)
  | unreadable

/-- A word before expansion. -/
abbrev Word := List Part

/-- How a redirection opens or copies its target, or that the target itself is the input. An
existing file may be protected from being emptied, unless that is insisted on. -/
inductive RedirectMode where
  | truncate (insisting : Bool)
  | append
  | input
  | duplicate
  | here
  deriving DecidableEq, Repr

/-- A redirection of one file descriptor to a target: a word, or what the word has become. -/
structure Redirect (α : Type) where
  descriptor : Nat
  mode : RedirectMode
  target : α

/-- A command. Where something in a command may be complained about, it keeps the line it stands
on. `lastly` marks a simple command at the end of a copy of the shell: a program that it starts
takes the place of the copy. -/
inductive Cmd where
  | nothing
  | simple (line : Nat) (assignments : List (String × Word)) (words : List Word)
      (redirects : List (Redirect Word))
  | redirected (line : Nat) (body : Cmd) (redirects : List (Redirect Word))
  | seq (first second : Cmd)
  | both (first second : Cmd)
  | either (first second : Cmd)
  | negate (body : Cmd)
  | subshell (body : Cmd)
  | background (body : Cmd)
  | pipe (first second : Cmd)
  | define (name : String) (body : Cmd)
  | cond (test yes no : Cmd)
  | forEach (line : Nat) (name : String) (values : Option (List Word)) (body : Cmd)
  | loop (until_ : Bool) (test body : Cmd)
  | choose (line : Nat) (subject : Word) (arms : List (List Word × Cmd))
  | lastly (body : Cmd)

mutual

/-- A command as it stands at the end of a copy of the shell. The copy does what a subshell there
would do. -/
def Cmd.ending : Cmd → Cmd
  | .simple line values words rs => .lastly (.simple line values words rs)
  | .redirected line (.subshell body) rs => .redirected line body.ending rs
  | .seq first .nothing => .seq first.ending .nothing
  | .seq first second => .seq first second.ending
  | .both first second => .both first second.ending
  | .either first second => .either first second.ending
  | .subshell body => body.ending
  | .cond test yes no => .cond test yes.ending no.ending
  | .choose line subject arms => .choose line subject (Cmd.endings arms)
  | cmd => cmd

/-- The arms of a choice as they stand at the end of a copy of the shell. -/
def Cmd.endings : List (List Word × Cmd) → List (List Word × Cmd)
  | [] => []
  | (patterns, body) :: rest => (patterns, body.ending) :: Cmd.endings rest

end

/-- A text that has been read. The shell reads the commands of a line and runs them before it reads
on, so the commands in front of something that cannot be read are there. Each comes with the number
of lines that have been read by its end; the complaint has the line it is about. -/
structure Program where
  commands : List (Nat × Cmd)
  complaint : Option (Nat × String)

/-- A text as it is run in a copy of the shell that ends with it. -/
def Program.ending (p : Program) : Program :=
  let last := p.commands.getLast?.map fun c => (c.1, c.2.ending)
  { p with commands := p.commands.dropLast ++ last.toList }

end CxxScript.Shell

import CxxScript.Text.Blank

/-!
# Shell-style words

Flag strings are read the way a shell reads words, without any expansion: blanks separate words,
single and double quotes group, and a backslash takes the next character as it stands, inside
quotes too. `quote` writes one word so that a POSIX shell reads it back, `join` a list of words.
The reader is a fold over the characters, so what it does on a joined text follows from what it
does on the parts: `scan_append`.
-/

set_option autoImplicit false

namespace CxxScript.Text.Words

/-- Where the reader stands: the finished words (the latest first), the characters of the word at
hand (the latest first), the quote that is open, and whether a backslash takes what follows. -/
structure State where
  done : List String := []
  current : List Char := []
  quote : Option Char := none
  escaped : Bool := false
  deriving DecidableEq, Repr

namespace State

/-- End the word at hand; an empty word is no word. -/
def endWord (s : State) : State :=
  if s.current.isEmpty then s
  else { s with done := String.ofList s.current.reverse :: s.done, current := [] }

/-- Take one character into the word at hand. -/
def take (s : State) (c : Char) : State := { s with current := c :: s.current }

/-- Read one character. -/
def step (s : State) (c : Char) : State :=
  if s.escaped then { s with escaped := false }.take c
  else if c == '\\' then { s with escaped := true }
  else match s.quote with
    | some q => if c == q then { s with quote := none } else s.take c
    | none =>
      if c == '\'' || c == '"' then { s with quote := some c }
      else if isBlank c then s.endWord
      else s.take c

/-- The words read so far, in order. -/
def words (s : State) : List String := s.endWord.done.reverse

end State

/-- The reader's state after a text. -/
def scan (s : State) (text : List Char) : State := text.foldl State.step s

/-- Reading a text that consists of two parts is reading one after the other. -/
theorem scan_append (s : State) (a b : List Char) : scan s (a ++ b) = scan (scan s a) b := by
  simp [scan]

/-- The words of a text. -/
def split (text : String) : List String := (scan {} text.toList).words

/-- The characters a word may hold without being quoted. -/
def isSafe (c : Char) : Bool :=
  c.isAlphanum || "_-+=/.,:@%^".toList.contains c

/-- A single quote ends the quoted part, stands between double quotes and opens a new part. -/
def quoteChar (c : Char) : List Char :=
  if c == '\'' then "'\"'\"'".toList else [c]

/-- The word as a POSIX shell reads it back: bare if it is safe, else between single quotes. -/
def quote (word : String) : String :=
  if !word.isEmpty && word.toList.all isSafe then word
  else String.ofList ('\'' :: word.toList.flatMap quoteChar ++ ['\''])

/-- The words, each quoted, with a space between any two. -/
def join (words : List String) : String := " ".intercalate (words.map quote)

end CxxScript.Text.Words

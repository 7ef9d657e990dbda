import CxxScript.Build.Launcher
import CxxScript.Proofs.Text.Joining

/-!
# Words as a POSIX shell reads them

A POSIX shell takes every character between single quotes as it stands. Between double quotes a
backslash takes only what would be special there, outside of quotes it takes any character, and a
line feed behind it is gone together with it. Blanks and line feeds separate words. `read` gives the
words of a text in which nothing is left to the shell: it refuses the text where an operator, a
comment or something to be expanded begins. Joined words are read back as they are,
`scan_join`, and with them the arguments that a debugger is told to run a program with,
`arguments_read_back`.
-/

set_option autoImplicit false

namespace CxxScript.Text.Posix

open Words (isSafe quoteChar quote join)

/-- Why a text is not read as words that stand for themselves. -/
inductive Refusal where
  | nul
  | operator (c : Char)
  | expansion (c : Char)
  | comment
  | unfinished
  deriving DecidableEq, Repr

/-- How the next character is quoted. -/
inductive Quoting where
  | bare
  | escaped
  | single
  | double
  | doubleEscaped
  deriving DecidableEq, Repr

/-- Where the shell stands: the finished words (the latest first), the characters of the word at
hand (the latest first), if a word has been begun, and the quoting. -/
structure State where
  done : List String := []
  word? : Option (List Char) := none
  quoting : Quoting := .bare
  deriving DecidableEq, Repr

/-- A blank or a line feed. -/
def isSeparator (c : Char) : Bool := c == ' ' || c == '\t' || c == '\n'

/-- A character that belongs to an operator wherever it is not quoted. -/
def isOperator (c : Char) : Bool := "|&;<>()".toList.contains c

/-- A character that begins an expansion or a pattern wherever it is not quoted. -/
def isExpansion (c : Char) : Bool := "$`*?[".toList.contains c

/-- A character that is special between double quotes. -/
def isSpecialInDouble (c : Char) : Bool := "$`\"\\".toList.contains c

namespace State

/-- Begin a word, unless one is at hand. -/
def begin (s : State) : State := { s with word? := some (s.word?.getD []) }

/-- Take one character into the word at hand. -/
def take (s : State) (c : Char) : State := { s with word? := some (c :: s.word?.getD []) }

/-- End the word at hand. A word of no characters is one if it has been begun. -/
def endWord (s : State) : State :=
  match s.word? with
  | some chars => { s with done := String.ofList chars.reverse :: s.done, word? := none }
  | none => s

/-- Read one character outside of quotes. -/
def stepBare (s : State) (c : Char) : Except Refusal State :=
  if isSeparator c then .ok s.endWord
  else if c == '\\' then .ok { s with quoting := .escaped }
  else if c == '\'' then .ok { s.begin with quoting := .single }
  else if c == '"' then .ok { s.begin with quoting := .double }
  else if isOperator c then .error (.operator c)
  else if isExpansion c then .error (.expansion c)
  else if s.word?.isNone && c == '#' then .error .comment
  else if s.word?.isNone && c == '~' then .error (.expansion c)
  else .ok (s.take c)

/-- Read one character. -/
def step (s : State) (c : Char) : Except Refusal State :=
  if c == '\x00' then .error .nul
  else match s.quoting with
    | .bare => s.stepBare c
    | .escaped =>
      let s := { s with quoting := .bare }
      .ok (if c == '\n' then s else s.take c)
    | .single => .ok (if c == '\'' then { s with quoting := .bare } else s.take c)
    | .double =>
      if c == '"' then .ok { s with quoting := .bare }
      else if c == '\\' then .ok { s with quoting := .doubleEscaped }
      else if c == '$' || c == '`' then .error (.expansion c)
      else .ok (s.take c)
    | .doubleEscaped =>
      let s := { s with quoting := .double }
      .ok (if c == '\n' then s
        else if isSpecialInDouble c then s.take c
        else (s.take '\\').take c)

/-- The words read so far, in order, unless something is left open. -/
def words (s : State) : Except Refusal (List String) :=
  match s.quoting with
  | .bare => .ok s.endWord.done.reverse
  | _ => .error .unfinished

end State

/-- The shell's state after a text. -/
def scan (s : State) (text : List Char) : Except Refusal State := text.foldlM State.step s

/-- The words of a text that leaves nothing to the shell. -/
def read (text : String) : Except Refusal (List String) :=
  (scan {} text.toList).bind State.words

/-- A text behind another is read from where that one leaves off. -/
theorem scan_append {s s' : State} {a : List Char} (ha : scan s a = .ok s') (b : List Char) :
    scan s (a ++ b) = scan s' b := by
  rw [scan, List.foldlM_append, ← scan, ha]
  rfl

/-- A text is read from where its first character leaves off. -/
theorem scan_cons {s s' : State} {c : Char} (hc : s.step c = .ok s') (rest : List Char) :
    scan s (c :: rest) = scan s' rest := by
  rw [scan, List.foldlM_cons, hc]
  rfl

/-- Outside of quotes a safe character stands for itself. -/
theorem step_safe (done : List String) (word? : Option (List Char)) {c : Char}
    (hsafe : isSafe c = true) :
    State.step { done, word? } c = .ok { done, word? := some (c :: word?.getD []) } := by
  have hspecial : "\x00 \t\n\\'\"|&;<>()$`*?[#~".toList.all (!isSafe ·) = true := by decide
  have hne : ∀ d ∈ "\x00 \t\n\\'\"|&;<>()$`*?[#~".toList, c ≠ d := by
    rintro d hd rfl
    have hunsafe := List.all_eq_true.mp hspecial c hd
    rw [hsafe] at hunsafe
    cases hunsafe
  simp at hne
  simp [State.step, State.stepBare, State.take, isSeparator, isOperator, isExpansion, hne]

/-- Safe characters make up a word. -/
theorem scan_safe (done : List String) (word? : Option (List Char)) {text : List Char}
    (hne : text ≠ []) (hsafe : text.all isSafe = true) :
    scan { done, word? } text = .ok { done, word? := some (text.reverse ++ word?.getD []) } := by
  induction text generalizing word? with
  | nil => exact absurd rfl hne
  | cons c rest ih =>
    rw [List.all_cons, Bool.and_eq_true] at hsafe
    rw [scan_cons (step_safe done word? hsafe.1)]
    cases rest with
    | nil => rfl
    | cons d rest =>
      rw [ih _ (List.cons_ne_nil d rest) hsafe.2]
      simp

/-- Between single quotes a text is read as it was written. -/
theorem scan_quoteChars (done : List String) (current text : List Char) (hnul : '\x00' ∉ text) :
    scan { done, word? := some current, quoting := .single } (text.flatMap quoteChar) =
      .ok { done, word? := some (text.reverse ++ current), quoting := .single } := by
  induction text generalizing current with
  | nil => rfl
  | cons c rest ih =>
    obtain ⟨hc, hrest⟩ := not_or.mp (mt List.mem_cons.mpr hnul)
    have hchar : scan { done, word? := some current, quoting := .single } (quoteChar c) =
        .ok { done, word? := some (c :: current), quoting := .single } := by
      by_cases hquote : c = '\''
      · -- The single quotes are closed, the character stands between double ones, and others open.
        subst hquote
        rfl
      · have hstep : State.step { done, word? := some current, quoting := .single } c =
            .ok { done, word? := some (c :: current), quoting := .single } := by
          simp [State.step, State.take, hquote, Ne.symm hc]
        have hself : quoteChar c = [c] := by simp [quoteChar, hquote]
        rw [hself, scan_cons hstep]
        rfl
    rw [List.flatMap_cons, scan_append hchar, ih (c :: current) hrest]
    simp

/-- A quoted word is read as the word at hand, whatever it holds. -/
theorem scan_quote (done : List String) {word : String} (hnul : '\x00' ∉ word.toList) :
    scan { done } (quote word).toList = .ok { done, word? := some word.toList.reverse } := by
  rcases Words.toList_quote word with ⟨hne, hsafe, hbare⟩ | hquoted
  · rw [hbare, scan_safe done none hne hsafe, Option.getD_none, List.append_nil]
  · have hopen : State.step { done } '\'' = .ok { done, word? := some [], quoting := .single } :=
      rfl
    have hclose : ∀ current,
        scan { done, word? := some current, quoting := .single } ['\''] =
          .ok { done, word? := some current } := fun _ => rfl
    rw [hquoted, scan_cons hopen, scan_append (scan_quoteChars done [] _ hnul), hclose,
      List.append_nil]

/-- Joined words are read back behind those that have been read before. -/
theorem scan_join (done : List String) {words : List String}
    (hnul : ∀ w ∈ words, '\x00' ∉ w.toList) :
    (scan { done } (join words).toList).bind State.words = .ok (done.reverse ++ words) := by
  induction words generalizing done with
  | nil => simp [join, scan, State.words, State.endWord, Except.bind, pure, Except.pure]
  | cons word rest ih =>
    have hword := scan_quote done (hnul word List.mem_cons_self)
    cases rest with
    | nil =>
      rw [Words.toList_join_singleton, hword]
      simp [Except.bind, State.words, State.endWord]
    | cons next rest =>
      have hspace : State.step { done, word? := some word.toList.reverse } ' ' =
          .ok { done := word :: done } := by
        simp [State.step, State.stepBare, State.endWord, isSeparator]
      rw [Words.toList_join_cons, scan_append hword, scan_cons hspace,
        ih _ fun w hw => hnul w (List.mem_cons_of_mem word hw)]
      simp

/-- A shell reads joined words back as they are, and has nothing to expand in them. So it does with
what a debugger is told to run the program with: the program's arguments, where it has any. -/
theorem arguments_read_back (executable : Path) (args : List String)
    (hnul : ∀ w ∈ args, '\x00' ∉ w.toList) :
    read (join args) = .ok args ∧
    ∃ c, Launcher.gdb.command? executable args = some c ∧ c.program = "gdb" ∧
      (args = [] → c.args = [executable.text]) ∧
      (args ≠ [] → ∃ text,
        c.args = [executable.text, "-ex", "break main", "-ex", "run " ++ text] ∧
          read text = .ok args) := by
  have hread : read (join args) = .ok args := scan_join [] hnul
  refine ⟨hread, _, rfl, rfl, ?_, fun hsome => ⟨join args, ?_, hread⟩⟩
  · rintro rfl
    rfl
  · have hargs : args.isEmpty = false := by simpa using hsome
    rw [hargs]
    rfl

/-- Arguments with nothing in them, quotes, a backslash, things to expand and a line feed. -/
def oddArguments : List String := ["", "it's", "a\\\"b", "$HOME *", "x\ny", "-O2"]

/-- A debugger is told to run the program with these arguments, and a shell reads them back. -/
theorem arguments_read_back_odd :
    (∀ w ∈ oddArguments, '\x00' ∉ w.toList) ∧ oddArguments ≠ [] ∧
      ∃ c text, Launcher.gdb.command? ⟨"/w/m"⟩ oddArguments = some c ∧
        c.args = ["/w/m", "-ex", "break main", "-ex", "run " ++ text] ∧
        read text = .ok oddArguments := by
  have hnul : ∀ w ∈ oddArguments, '\x00' ∉ w.toList := by decide
  have hsome : oddArguments ≠ [] := List.cons_ne_nil _ _
  obtain ⟨-, c, hc, -, -, hargs⟩ := arguments_read_back ⟨"/w/m"⟩ oddArguments hnul
  obtain ⟨text, htext, hread⟩ := hargs hsome
  exact ⟨hnul, hsome, c, text, hc, htext, hread⟩

/-- Without the quotes there would be something to expand. -/
example : read "-O2 $HOME" = .error (.expansion '$') := by rfl

end CxxScript.Text.Posix

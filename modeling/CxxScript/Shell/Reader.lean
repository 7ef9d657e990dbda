import CxxScript.Shell.Token

/-!
# Reading a script

The tokens of a script are read into commands, one complete line at a time: `program` gives the
commands up to the first line that cannot be read. Reading takes a number of steps that the number
of tokens bounds; each step either takes a token off or goes one level down in the grammar.
-/

set_option autoImplicit false

namespace CxxScript.Shell.Reader

/-- What has been read, or else a complaint about a line. -/
abbrev Checked := Except (Nat × String)

/-- The reserved word that a token may be. -/
def Token.bare? : Token → Option String
  | .word _ parts => parts.foldr (fun part text =>
      match part, text with
      | .text false chars, some text => some (String.ofList chars ++ text)
      | _, _ => none) (some "")
  | _ => none

/-- The line on which a token ends. -/
def Token.line : Token → Nat
  | .word line _ | .operator line _ | .redirect line .. | .unreadable line _ | .ended line => line

/-- The line at which some tokens start. -/
def lineOf : List Token → Nat
  | token :: _ => token.line
  | [] => 0

/-- The words that end a list of commands. -/
def closers : List String := ["then", "else", "elif", "fi", "do", "done", "esac", "\x7d"]

/-- Whether a list of tokens starts with the bare word `text`. -/
def startsWith (text : String) : List Token → Bool
  | token :: _ => token.bare? == some text
  | [] => false

/-- How a token is named where it cannot stand. -/
def Token.named : Token → String
  | .operator _ "\n" => "newline"
  | .operator _ text => s!"\"{text}\""
  | .redirect .. => "redirection"
  | .ended _ | .unreadable .. => "end of file"
  | .word line parts =>
    match (Token.word line parts).bare? with
    | some text => if text = "!" || closers.contains text then s!"\"{text}\"" else "word"
    | none => "word"

/-- The complaint about the token at the start, with what should stand there. -/
def refuse {α : Type} (ts : List Token) (wanted : String) : Checked α :=
  match ts with
  | .unreadable line why :: _ => .error (line, why)
  | token :: _ => .error (token.line, s!"Syntax error: {token.named} unexpected{wanted}")
  | [] => .error (0, s!"Syntax error: end of file unexpected{wanted}")

/-- The complaint about a token that cannot stand here. -/
def refuseAny {α : Type} (ts : List Token) : Checked α := refuse ts ""

/-- The complaint about a token where a certain one has to stand. -/
def refuseFor {α : Type} (ts : List Token) (expected : String) : Checked α :=
  refuse ts s!" (expecting \"{expected}\")"

/-- Take the bare word `text` off. -/
def expect (text : String) (ts : List Token) : Checked (List Token) :=
  if startsWith text ts then return ts.drop 1 else refuseFor ts text

/-- Drop leading newlines. -/
def skipNewlines : List Token → List Token
  | .operator _ "\n" :: rest => skipNewlines rest
  | ts => ts

/-- Whether the script ends here. -/
def isOver : List Token → Bool
  | [] | .ended _ :: _ => true
  | _ => false

/-- Whether a list of commands ends here. -/
def isEnd : List Token → Bool
  | [] | .ended _ :: _ => true
  | .operator _ text :: _ => text = ")" || text = ";;"
  | token :: _ => match token.bare? with
    | some text => closers.contains text
    | none => false

/-- Whether a text can name a variable. -/
def isVariableName : List Char → Bool
  | [] => false
  | c :: rest => !c.isDigit && (c :: rest).all isNameChar

/-- The name and the value of an assignment that a word spells. -/
def assignment? : Word → Option (String × Word)
  | .text false chars :: value =>
    let name := chars.takeWhile (· ≠ '=')
    match chars.drop name.length with
    | _equals :: more =>
      if isVariableName name then
        some (String.ofList name, (if more.isEmpty then [] else [.text false more]) ++ value)
      else none
    | [] => none
  | _ => none

/-- The redirections at the start of some tokens. -/
def redirects : List Token → Checked (List (Redirect Word) × List Token)
  | .redirect _ descriptor mode :: .word _ target :: rest => do
    let (more, rest) ← redirects rest
    return ({ descriptor, mode, target } :: more, rest)
  | .redirect .. :: ts => refuseAny ts
  | ts => return ([], ts)

/-- What a simple command is made of. -/
structure Simple where
  assignments : List (String × Word) := []
  words : List Word := []
  redirects : List (Redirect Word) := []

/-- Read the rest of a simple command: assignments, words and redirections in any order, except
that what looks like an assignment behind the first word is a word. The latest come first. -/
def simpleFrom (c : Simple) : List Token → Checked (Simple × List Token)
  | .word _ w :: rest =>
    match c.words, assignment? w with
    | [], some a => simpleFrom { c with assignments := a :: c.assignments } rest
    | _, _ => simpleFrom { c with words := w :: c.words } rest
  | .redirect _ descriptor mode :: .word _ target :: rest =>
    simpleFrom { c with redirects := { descriptor, mode, target } :: c.redirects } rest
  | .redirect .. :: ts => refuseAny ts
  | ts => return (c, ts)

/-- Read a simple command on a line. -/
def simple (line : Nat) (ts : List Token) : Checked (Cmd × List Token) := do
  let (c, rest) ← simpleFrom {} ts
  return (.simple line c.assignments.reverse c.words.reverse c.redirects.reverse, rest)

/-- The words up to the end of the line. -/
def wordsOf : List Token → List Word × List Token
  | .word _ w :: rest =>
    let (ws, rest) := wordsOf rest
    (w :: ws, rest)
  | ts => ([], ts)

/-- The patterns of one arm of a choice, up to its closing parenthesis. -/
def patterns : List Token → Checked (List Word × List Token)
  | .word _ w :: .operator _ "|" :: rest => do
    let (ws, rest) ← patterns rest
    return (w :: ws, rest)
  | .word _ w :: .operator _ ")" :: rest => return ([w], rest)
  | ts => refuseFor (ts.drop 1) ")"

mutual

/-- Read commands up to a token that ends them. There has to be one at least, unless the list may
be empty. -/
def list : Nat → Bool → List Token → Checked (Cmd × List Token)
  | 0, _, ts => refuseAny ts
  | fuel + 1, mayBeEmpty, ts => do
    let ts := skipNewlines ts
    if isOver ts then return (.nothing, ts)
    if isEnd ts then if mayBeEmpty then return (.nothing, ts) else refuseAny ts
    let (first, ts) ← chain fuel ts
    match ts with
    | .operator _ ";" :: rest | .operator _ "\n" :: rest =>
      let (second, rest) ← list fuel true rest
      return (.seq first second, rest)
    | .operator _ "&" :: rest =>
      let (second, rest) ← list fuel true rest
      return (.seq (.background first) second, rest)
    | _ => if isEnd ts then return (first, ts) else refuseAny ts

/-- Read commands joined by `&&` and `||`, which group from the left. -/
def chain : Nat → List Token → Checked (Cmd × List Token)
  | 0, ts => refuseAny ts
  | fuel + 1, ts => do
    let (first, ts) ← negation fuel ts
    chainFrom fuel first ts

/-- Read on behind the first command of a chain. -/
def chainFrom : Nat → Cmd → List Token → Checked (Cmd × List Token)
  | 0, _, ts => refuseAny ts
  | fuel + 1, first, ts => do
    match ts with
    | .operator _ "&&" :: rest =>
      let (second, rest) ← negation fuel (skipNewlines rest)
      chainFrom fuel (.both first second) rest
    | .operator _ "||" :: rest =>
      let (second, rest) ← negation fuel (skipNewlines rest)
      chainFrom fuel (.either first second) rest
    | _ => return (first, ts)

/-- Read a pipeline that `!` may negate. -/
def negation : Nat → List Token → Checked (Cmd × List Token)
  | 0, ts => refuseAny ts
  | fuel + 1, ts => do
    if startsWith "!" ts then
      if startsWith "!" (ts.drop 1) then refuseAny (ts.drop 1)
      let (body, ts) ← pipeline fuel (ts.drop 1)
      return (.negate body, ts)
    else pipeline fuel ts

/-- Read commands of which each reads what the one before it writes. -/
def pipeline : Nat → List Token → Checked (Cmd × List Token)
  | 0, ts => refuseAny ts
  | fuel + 1, ts => do
    let (first, ts) ← command fuel ts
    match ts with
    | .operator _ "|" :: rest =>
      let (second, rest) ← pipeline fuel (skipNewlines rest)
      return (.pipe first second, rest)
    | _ => return (first, ts)

/-- Read one command with the redirections behind it. -/
def command : Nat → List Token → Checked (Cmd × List Token)
  | 0, ts => refuseAny ts
  | fuel + 1, ts => do
    let line := lineOf ts
    let compound (body : Cmd) (ts : List Token) : Checked (Cmd × List Token) := do
      match ← redirects ts with
      | ([], ts) => return (body, ts)
      | (rs, ts) => return (.redirected line body rs, ts)
    match ts with
    | .operator _ "(" :: rest =>
      let (body, rest) ← list fuel false rest
      match rest with
      | .operator _ ")" :: rest => compound (.subshell body) rest
      | rest => refuseFor rest ")"
    | .redirect .. :: _ => simple line ts
    | .word _ w :: rest =>
      match (Token.word line w).bare? with
      | some "\x7b" =>
        let (body, rest) ← list fuel false rest
        compound body (← expect "\x7d" rest)
      | some "if" =>
        let (body, rest) ← branches fuel rest
        compound body rest
      | some "while" | some "until" =>
        let (test, behind) ← list fuel false rest
        let (body, behind) ← list fuel false (← expect "do" behind)
        compound (.loop (startsWith "until" ts) test body) (← expect "done" behind)
      | some "for" =>
        match rest with
        | .word at_ spelled :: behind =>
          let name := ((Token.word at_ spelled).bare?).getD ""
          if !isVariableName name.toList then .error (at_, "Syntax error: Bad for loop variable")
          let (values, behind) := match startsWith "in" (skipNewlines behind) with
            | true =>
              let (ws, behind) := wordsOf ((skipNewlines behind).drop 1)
              (some ws, behind)
            | false => (none, behind)
          let behind ← match behind with
            | .operator _ ";" :: behind | .operator _ "\n" :: behind => pure behind
            | behind => if values.isSome then refuseAny behind else pure behind
          let (body, behind) ← list fuel false (← expect "do" (skipNewlines behind))
          compound (.forEach line name values body) (← expect "done" behind)
        | .unreadable .. :: _ => refuseAny rest
        | behind => .error (lineOf behind, "Syntax error: Bad for loop variable")
      | some "case" =>
        match rest with
        | .word _ subject :: behind =>
          let (arms, behind) ← arms fuel (skipNewlines (← expect "in" (skipNewlines behind)))
          compound (.choose line subject arms) behind
        | behind => refuse behind " (expecting word)"
      | named =>
        if named.any closers.contains then refuseAny ts
        else match rest with
          | .operator _ "(" :: .operator _ ")" :: behind =>
            let (body, behind) ← command fuel (skipNewlines behind)
            return (.define (named.getD "") body, behind)
          | .operator _ "(" :: behind => refuseFor behind ")"
          | _ => simple line ts
    | _ => refuseAny ts

/-- Read the rest of a conditional behind `if` or `elif`. -/
def branches : Nat → List Token → Checked (Cmd × List Token)
  | 0, ts => refuseAny ts
  | fuel + 1, ts => do
    let (test, ts) ← list fuel false ts
    let (yes, ts) ← list fuel false (← expect "then" ts)
    if startsWith "elif" ts then
      let (no, ts) ← branches fuel (ts.drop 1)
      return (.cond test yes no, ts)
    else if startsWith "else" ts then
      let (no, ts) ← list fuel false (ts.drop 1)
      return (.cond test yes no, ← expect "fi" ts)
    else return (.cond test yes .nothing, ← expect "fi" ts)

/-- Read the arms of a choice up to `esac`. -/
def arms : Nat → List Token → Checked (List (List Word × Cmd) × List Token)
  | 0, ts => refuseAny ts
  | fuel + 1, ts => do
    if startsWith "esac" ts then return ([], ts.drop 1)
    let ts := match ts with
      | .operator _ "(" :: ts => ts
      | ts => ts
    let (ws, ts) ← patterns ts
    let (body, ts) ← list fuel true ts
    match ts with
    | .operator _ ";;" :: rest =>
      let (more, rest) ← arms fuel (skipNewlines rest)
      return ((ws, body) :: more, rest)
    | _ =>
      if startsWith "esac" ts then return ([(ws, body)], ts.drop 1)
      else refuseFor ts ";;"

end

/-- Read a complete line of commands, with the line feed behind it. -/
def lineOfCommands : Nat → Nat → List Token → Checked (Cmd × List Token)
  | 0, _, ts => refuseAny ts
  | fuel + 1, depth, ts => do
    let (first, ts) ← chain depth ts
    let goOn (first : Cmd) (rest : List Token) : Checked (Cmd × List Token) := do
      match rest with
      | .operator _ "\n" :: _ | .ended _ :: _ | [] => return (first, rest)
      | _ =>
        let (second, rest) ← lineOfCommands fuel depth rest
        return (.seq first second, rest)
    match ts with
    | .operator _ ";" :: rest => goOn first rest
    | .operator _ "&" :: rest => goOn (.background first) rest
    | .operator _ "\n" :: _ | .ended _ :: _ | [] => return (first, ts)
    | _ => refuseAny ts

/-- Read the lines of a script in order, the latest of which are `done`. -/
def lines : Nat → List (Nat × Cmd) → List Token → Program
  | 0, done, _ => { commands := done.reverse, complaint := none }
  | fuel + 1, done, ts =>
    match ts with
    | [] | .ended _ :: _ => { commands := done.reverse, complaint := none }
    | .operator _ "\n" :: rest => lines fuel done rest
    | _ =>
      match lineOfCommands ts.length (8 * ts.length.succ) ts with
      | .ok (cmd, rest) =>
        let last := match rest with
          | .operator next "\n" :: _ => next - 1
          | _ => lineOf rest
        lines fuel ((last, cmd) :: done) rest
      | .error complaint => { commands := done.reverse, complaint := some complaint }

/-- Read a whole script whose first line has a number. -/
def program (first : Nat) (text : List Char) : Program :=
  let ts := tokens first text
  lines ts.length.succ [] ts

end CxxScript.Shell.Reader

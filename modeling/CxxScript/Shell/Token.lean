import CxxScript.Shell.Script
import CxxScript.Text.Blank

/-!
# Tokens of a script

A script is cut into words, operators and redirections. A word is read part by part, down into the
parameters and expressions that it holds; the number of steps for that is bounded by the length of
the text. What cannot be read becomes a token of its own, so that what stands in front of it can
still be used.
-/

set_option autoImplicit false

namespace CxxScript.Shell.Reader

/-- Where a word is being read, which decides where it ends and what is quoted. -/
inductive Mode where
  | bare
  | doubleQuoted
  | here
  | braced (quoted : Bool)
  | arithmetic
  deriving DecidableEq, Repr

/-- Whether text read in this mode is quoted. -/
def Mode.quotes : Mode → Bool
  | .bare => false
  | .doubleQuoted | .here | .arithmetic => true
  | .braced quoted => quoted

/-- A character of a variable name. -/
def isNameChar (c : Char) : Bool := c.isAlphanum || c == '_'

/-- A character that ends a bare word. -/
def isWordEnd (c : Char) : Bool := " \t\n;&|()<>".toList.contains c

/-- The parameters with a name of one special character. -/
def isSpecial (c : Char) : Bool := "@*#?-$!0123456789".toList.contains c

/-- The name at the start of a text and what stands behind it. -/
def readName? (cs : List Char) : Option (String × List Char) :=
  match cs with
  | [] => none
  | c :: rest =>
    if isSpecial c then some (c.toString, rest)
    else if isNameChar c then
      some (String.ofList (cs.takeWhile isNameChar), cs.dropWhile isNameChar)
    else none

/-- The name at the start of a text in braces: there a number may have more than one digit. -/
def readBracedName? (cs : List Char) : Option (String × List Char) :=
  match cs.takeWhile Char.isDigit with
  | [] => readName? cs
  | digits => some (String.ofList digits, cs.drop digits.length)

/-- The use that an operator behind a parameter's name asks for, and what stands behind it. -/
def readUse? : List Char → Option (ParamUse × List Char)
  | ':' :: '-' :: rest => some (.orElse true, rest)
  | '-' :: rest => some (.orElse false, rest)
  | ':' :: '=' :: rest => some (.orAssign true, rest)
  | '=' :: rest => some (.orAssign false, rest)
  | ':' :: '?' :: rest => some (.orComplain true, rest)
  | '?' :: rest => some (.orComplain false, rest)
  | ':' :: '+' :: rest => some (.ifSet true, rest)
  | '+' :: rest => some (.ifSet false, rest)
  | '#' :: '#' :: rest => some (.cut false true, rest)
  | '#' :: rest => some (.cut false false, rest)
  | '%' :: '%' :: rest => some (.cut true true, rest)
  | '%' :: rest => some (.cut true false, rest)
  | _ => none

/-- The characters that a backslash quotes inside double quotes; in the lines of an input that a
script holds itself, a double quote is nothing special. -/
def Mode.escapes (mode : Mode) (c : Char) : Bool :=
  "$`\\".toList.contains c || c == '"' && mode != .here || c == '\x7d' && mode == .braced true

/-- A character that stands for itself in this mode and does not end the text. -/
def Mode.isPlain (mode : Mode) (c : Char) : Bool :=
  !"\\$`\"'".toList.contains c && match mode with
    | .bare => !isWordEnd c
    | .braced _ => c != '\x7d'
    | .arithmetic => c != '(' && c != ')'
    | .doubleQuoted | .here => true

/-- The text of a command substitution up to the parenthesis that closes it, and what stands behind.
`depth` counts the parentheses that are open inside, `quote` is the quote that is open. -/
def untilClosed : Nat → Option Char → List Char → Option (List Char × List Char)
  | _, _, [] => none
  | depth, quote, '\\' :: c :: rest =>
    if quote = some '\'' then
      (untilClosed depth quote (c :: rest)).map fun r => ('\\' :: r.1, r.2)
    else (untilClosed depth quote rest).map fun r => ('\\' :: c :: r.1, r.2)
  | depth, quote, c :: rest =>
    let goOn (depth : Nat) (quote : Option Char) : Option (List Char × List Char) :=
      (untilClosed depth quote rest).map fun r => (c :: r.1, r.2)
    match quote with
    | some q => goOn depth (if c == q then none else quote)
    | none =>
      if c == '\'' || c == '"' then goOn depth (some c)
      else if c == '(' then goOn (depth + 1) none
      else if c == ')' then if depth = 0 then some ([], rest) else goOn (depth - 1) none
      else goOn depth none

/-- The text of a command substitution up to its closing backquote, a backslash quoting the
characters that are special there, and what stands behind. -/
def untilBackquote (quoted : Bool) : List Char → Option (List Char × List Char)
  | [] => none
  | '`' :: rest => some ([], rest)
  | '\\' :: c :: rest =>
    let kept := if "$`\\".toList.contains c || quoted && c == '"' then [c] else ['\\', c]
    (untilBackquote quoted rest).map fun r => (kept ++ r.1, r.2)
  | c :: rest => (untilBackquote quoted rest).map fun r => (c :: r.1, r.2)

mutual

/-- Read the parts of a word up to where the mode ends it. `lineAt` tells the line on which a rest
of the text starts; a command in backquotes has lines of its own. -/
def readParts (lineAt : List Char → Nat) :
    Nat → Mode → List Char → Except String (List Part × List Char)
  | 0, _, _ => .error "word too deep"
  | fuel + 1, mode, cs => do
    let goOn (part : Part) (rest : List Char) : Except String (List Part × List Char) := do
      let (parts, rest) ← readParts lineAt fuel mode rest
      return (part :: parts, rest)
    match mode, cs with
    | .bare, [] | .here, [] => return ([], [])
    | .braced _, [] => .error "Syntax error: Missing '\x7d'"
    | .arithmetic, [] => .error "Syntax error: Missing '))'"
    | .doubleQuoted, [] => .error "Syntax error: Unterminated quoted string"
    | .doubleQuoted, '"' :: _ => return ([], cs)
    | .braced _, '}' :: _ => return ([], cs)
    | .arithmetic, ')' :: ')' :: _ => return ([], cs)
    | _, '\\' :: '\n' :: rest => readParts lineAt fuel mode rest
    | _, '\\' :: c :: rest =>
      if mode.quotes && !mode.escapes c then goOn (.text true ['\\', c]) rest
      else goOn (.text true [c]) rest
    | _, '$' :: rest => do
      let (part, rest) ← readDollar lineAt fuel mode.quotes rest
      goOn part rest
    | _, '`' :: rest =>
      match untilBackquote mode.quotes rest with
      | some (source, rest) => goOn (.command mode.quotes 1 source) rest
      | none => .error "Syntax error: EOF in backquote substitution"
    | .arithmetic, '(' :: rest => do
      let (inner, rest) ← readNested lineAt fuel rest
      let (parts, rest) ← readParts lineAt fuel mode rest
      return (.text true ['('] :: inner ++ .text true [')'] :: parts, rest)
    | _, '"' :: rest =>
      if mode.quotes && mode != .braced true then goOn (.text true ['"']) rest
      else do
        let (inner, rest) ← readParts lineAt fuel .doubleQuoted rest
        let (parts, rest) ← readParts lineAt fuel mode (rest.drop 1)
        return ((if inner.isEmpty then [.text true []] else inner) ++ parts, rest)
    | _, '\'' :: rest =>
      if mode.quotes then goOn (.text true ['\'']) rest
      else match rest.dropWhile (· ≠ '\'') with
        | [] => .error "Syntax error: Unterminated quoted string"
        | _close :: behind => goOn (.text true (rest.takeWhile (· ≠ '\''))) behind
    | _, c :: rest =>
      if mode = .bare && isWordEnd c then return ([], cs)
      else match cs.takeWhile mode.isPlain with
        | [] => goOn (.text mode.quotes [c]) rest
        | run => goOn (.text mode.quotes run) (cs.drop run.length)

/-- Read the text of an arithmetic expression up to the parenthesis that closes it. -/
def readNested (lineAt : List Char → Nat) : Nat → List Char → Except String (List Part × List Char)
  | 0, _ => .error "word too deep"
  | _, [] => .error "Syntax error: Missing '))'"
  | _ + 1, ')' :: rest => return ([], rest)
  | fuel + 1, '(' :: rest => do
    let (inner, rest) ← readNested lineAt fuel rest
    let (parts, rest) ← readNested lineAt fuel rest
    return (.text true ['('] :: inner ++ .text true [')'] :: parts, rest)
  | fuel + 1, '$' :: rest => do
    let (part, rest) ← readDollar lineAt fuel true rest
    let (parts, rest) ← readNested lineAt fuel rest
    return (part :: parts, rest)
  | fuel + 1, c :: rest => do
    let (parts, rest) ← readNested lineAt fuel rest
    return (.text true [c] :: parts, rest)

/-- Read what stands behind a dollar sign. -/
def readDollar (lineAt : List Char → Nat) :
    Nat → Bool → List Char → Except String (Part × List Char)
  | 0, _, _ => .error "word too deep"
  | fuel + 1, quoted, cs =>
    let giveUp (rest : List Char) : Except String (Part × List Char) :=
      match rest.dropWhile (· ≠ '\x7d') with
      | [] => .error "Syntax error: Missing '\x7d'"
      | behind => return (.unreadable, behind)
    match cs with
    | '(' :: '(' :: rest => do
      let (expression, rest) ← readParts lineAt fuel .arithmetic rest
      return (.arithmetic quoted expression, rest.drop 2)
    | '(' :: rest =>
      match untilClosed 0 none rest with
      | some (source, behind) => return (.command quoted (lineAt rest) source, behind)
      | none => .error "Syntax error: end of file unexpected (expecting \")\")"
    | '{' :: '#' :: rest =>
      match readBracedName? rest with
      | some (name, '}' :: rest) => return (.param quoted name .length [], rest)
      | _ =>
        match rest with
        | '}' :: rest => return (.param quoted "#" .value [], rest)
        | _ => giveUp rest
    | '{' :: rest =>
      match readBracedName? rest with
      | some (name, '}' :: rest) => return (.param quoted name .value [], rest)
      | some (name, rest) =>
        match readUse? rest with
        | some (use, rest) => do
          let isPattern := match use with
            | .cut .. => true
            | _ => false
          let (operand, rest) ← readParts lineAt fuel (.braced (quoted && !isPattern)) rest
          return (.param quoted name use operand, rest.drop 1)
        | none => giveUp rest
      | none => giveUp rest
    | _ =>
      match readName? cs with
      | some (name, rest) => return (.param quoted name .value [], rest)
      | none => return (.text quoted ['$'], cs)

end

/-- A token of a script. Each has the line on which it ends; a line feed ends on the next one. -/
inductive Token where
  | word (line : Nat) (parts : Word)
  | operator (line : Nat) (text : String)
  | redirect (line : Nat) (descriptor : Nat) (mode : RedirectMode)
  | unreadable (line : Nat) (why : String)
  | ended (line : Nat)

/-- The redirection operator at the start of a text, with the descriptor it is usually about. -/
def redirectAt? : List Char → Option (RedirectMode × Nat × List Char)
  | '>' :: '>' :: rest => some (.append, 1, rest)
  | '>' :: '&' :: rest => some (.duplicate, 1, rest)
  | '>' :: '|' :: rest => some (.truncate true, 1, rest)
  | '>' :: rest => some (.truncate false, 1, rest)
  | '<' :: '<' :: _ => none
  | '<' :: '&' :: rest => some (.duplicate, 0, rest)
  | '<' :: rest => some (.input, 0, rest)
  | _ => none

/-- The control operator at the start of a text. A newline is one. -/
def operatorAt? : List Char → Option (String × List Char)
  | '&' :: '&' :: rest => some ("&&", rest)
  | '|' :: '|' :: rest => some ("||", rest)
  | ';' :: ';' :: rest => some (";;", rest)
  | '\n' :: rest => some ("\n", rest)
  | c :: rest => if ";&|()".toList.contains c then some (c.toString, rest) else none
  | [] => none

/-- The descriptor in front of a redirection: one digit at most. -/
def descriptor? (cs : List Char) : Option Nat × List Char :=
  match cs with
  | c :: '<' :: rest => if c.isDigit then (some (c.toNat - 48), '<' :: rest) else (none, cs)
  | c :: '>' :: rest => if c.isDigit then (some (c.toNat - 48), '>' :: rest) else (none, cs)
  | _ => (none, cs)

/-- The number of line feeds in a text. -/
def lineFeeds (cs : List Char) : Nat := cs.count '\n'

/-- The number of line feeds between a text and what is left of it. -/
def linesBetween (before after : List Char) : Nat :=
  lineFeeds (before.take (before.length - after.length))

/-- The text of a word and whether any of it is quoted. -/
def spelling (w : Word) : List Char × Bool :=
  w.foldl (fun s part => match part with
    | .text quoted chars => (s.1 ++ chars, s.2 || quoted)
    | _ => s) ([], false)

/-- The lines of a text up to one that equals `delimiter`, that line included, and the lines
behind. -/
def linesUntil (delimiter : List Char) (tabs : Bool) :
    List (List Char) → List (List Char) × List (List Char)
  | [] => ([], [])
  | line :: rest =>
    let line := if tabs then line.dropWhile (· == '\t') else line
    if line = delimiter || line = delimiter ++ ['\n'] then ([], rest)
    else
      let (body, behind) := linesUntil delimiter tabs rest
      (line :: body, behind)

/-- What a script holds as input for a command. -/
structure Here where
  content : Word
  /-- The text behind the operator, without the lines that are the input. -/
  behind : List Char
  /-- How many lines these are. -/
  lines : Nat

/-- Take the lines that a script holds as input out of the text behind the operator on a line. -/
def here? (line : Nat) (cs : List Char) : Except String Here := do
  let (tabs, cs) := match cs with
    | '-' :: rest => (true, rest)
    | cs => (false, cs)
  let cs := cs.dropWhile fun c => c == ' ' || c == '\t'
  let (parts, rest) ← readParts (fun _ => line) cs.length.succ .bare cs
  let (delimiter, quoted) := spelling parts
  let level := rest.takeWhile (· ≠ '\n')
  let below := Text.splitAfter (· == '\n') ((rest.drop level.length).drop 1)
  let (body, after) := linesUntil delimiter tabs below
  let behind := if rest.length = level.length then level else level ++ '\n' :: after.flatten
  let lines := below.length - after.length
  let body := body.flatten
  if quoted then return { content := [.text true body], behind, lines }
  else
    let lineAt (rest : List Char) : Nat := line + 1 + linesBetween body rest
    return { content := (← readParts lineAt body.length.succ .here body).1, behind, lines }

/-- Cut a script into tokens, the latest of which are `done`. The lines of input that are held for
the line at hand are `held`. -/
def tokensFrom : Nat → Nat → Nat → List Token → List Char → List Token
  | 0, line, _, done, _ | _, line, _, done, [] => (.ended line :: done).reverse
  | fuel + 1, line, held, done, c :: rest =>
    let cs := c :: rest
    if c == ' ' || c == '\t' then tokensFrom fuel line held done rest
    else if c == '#' then tokensFrom fuel line held done (rest.dropWhile (· ≠ '\n'))
    else match c, rest with
      | '\\', '\n' :: rest => tokensFrom fuel (line + 1) held done rest
      | _, _ =>
        let giveUp (why : String) : List Token :=
          (.unreadable (line + lineFeeds cs) why :: done).reverse
        let (descriptor, behind) := descriptor? cs
        match behind, redirectAt? behind with
        | '<' :: '<' :: rest, _ =>
          match here? (line + held) rest with
          | .error why => giveUp why
          | .ok h =>
            let here := [Token.word line h.content, .redirect line (descriptor.getD 0) .here]
            tokensFrom fuel line (held + h.lines) (here ++ done) h.behind
        | _, some (mode, usual, rest) =>
          tokensFrom fuel line held (.redirect line (descriptor.getD usual) mode :: done) rest
        | _, none =>
          match operatorAt? cs with
          | some ("\n", rest) =>
            let line := line + 1 + held
            tokensFrom fuel line 0 (.operator line "\n" :: done) rest
          | some (text, rest) => tokensFrom fuel line held (.operator line text :: done) rest
          | none =>
            let lineAt (rest : List Char) : Nat := line + linesBetween cs rest
            match readParts lineAt cs.length.succ .bare cs with
            | .error why => giveUp why
            | .ok (parts, rest) =>
              let line := line + linesBetween cs rest
              tokensFrom fuel line held (.word line parts :: done) rest

/-- Cut a script whose first line has a number into tokens. -/
def tokens (first : Nat) (text : List Char) : List Token :=
  tokensFrom text.length.succ first 0 [] text

end CxxScript.Shell.Reader

import CxxScript.Shell.Arithmetic
import CxxScript.Shell.State

/-!
# Conditions

The tests of `[`: on texts, on integers and on files, joined by `-a` and `-o`, negated by `!` and
grouped by parentheses. An argument that looks like an operator may stand for itself where nothing
behind it would fit an operator; `role` tells which it is.
-/

set_option autoImplicit false

namespace CxxScript.Shell.Condition

/-- A truth value, or the text of a complaint. -/
abbrev Verdict := Except String Bool

/-- The entry that a path names in the shell's working directory. -/
def entryAt? (st : State) (path : String) : Option (Location × Entry) :=
  match st.files.find st.cwd ⟨path⟩ with
  | .ok found => some found
  | .error _ => none

/-- Whether a path names a link. -/
def isLink (st : State) (path : String) : Bool :=
  match st.files.locate st.cwd .linkItself ⟨path⟩ with
  | .ok (.present _ (.link _)) => true
  | _ => false

/-- Whether an entry is a file or directory that can be run or entered. -/
def isUsable : Entry → Bool
  | .file _ executable => executable
  | .directory => true
  | .link _ | .device _ => false

/-- Whether an entry holds something. -/
def isFull : Entry → Bool
  | .file content _ => !content.isEmpty
  | .directory | .link _ => true
  | .device _ => false

/-- Whether an entry is a device of single characters. -/
def isCharacterDevice : Entry → Bool
  | .device d => d.isFixed
  | _ => false

/-- The tests of one operand. -/
def unaryOperators : List String := [
  "-r", "-w", "-x", "-e", "-f", "-d", "-c", "-b", "-p", "-u", "-g", "-k", "-s", "-t", "-z", "-n",
  "-h", "-L", "-O", "-G", "-S"]

/-- The tests of two operands. -/
def binaryOperators : List String := [
  "=", "!=", "<", ">", "-eq", "-ne", "-ge", "-gt", "-le", "-lt", "-nt", "-ot", "-ef"]

/-- An integer operand. -/
def integer (text : String) : Except String Int :=
  match text.trimAscii.toString.toInt? with
  | some n => return n
  | none => .error s!"Illegal number: {text}"

/-- Decide a test of one operand. -/
def unary (st : State) (operator : String) (x : String) : Verdict := do
  let entry := (entryAt? st x).map (·.2)
  match operator with
  | "-n" => return !x.isEmpty
  | "-z" => return x.isEmpty
  | "-e" | "-r" | "-w" | "-O" | "-G" => return entry.isSome
  | "-f" => return entry.any Entry.isFile
  | "-d" => return entry == some .directory
  | "-c" => return entry.any isCharacterDevice
  | "-x" => return entry.any isUsable
  | "-s" => return entry.any isFull
  | "-L" | "-h" => return isLink st x
  | "-t" =>
    let _ ← integer x
    return false
  | _ => return false

/-- Decide a test of two operands. No file counts as newer than another. -/
def binary (st : State) (x operator y : String) : Verdict := do
  let compare (r : Int → Int → Bool) : Verdict := do
    let a ← integer x
    return r a (← integer y)
  match operator with
  | "=" => return x == y
  | "!=" => return x != y
  | "<" => return x < y
  | ">" => return x > y
  | "-eq" => compare (· == ·)
  | "-ne" => compare (· != ·)
  | "-lt" => compare (· < ·)
  | "-le" => compare (· ≤ ·)
  | "-gt" => compare (· > ·)
  | "-ge" => compare (· ≥ ·)
  | "-ef" =>
    match entryAt? st x, entryAt? st y with
    | some a, some b => return a.1 == b.1
    | _, _ => return false
  | _ => return false

/-- What an argument is at its place. -/
inductive Role where
  | missing
  | unary
  | negation
  | conjunction
  | disjunction
  | opening
  | closing
  | operand
  deriving DecidableEq, Repr

/-- Whether what stands behind an operator of one operand leaves that operator to be an operand
itself. -/
def leavesOperand : List String → Bool
  | [] => true
  | [_] => false
  | next :: _ => binaryOperators.contains next

/-- What the first of some arguments is. -/
def role : List String → Role
  | [] => .missing
  | x :: rest =>
    if unaryOperators.contains x then if leavesOperand rest then .operand else .unary
    else match x with
      | "!" => .negation
      | "-a" => .conjunction
      | "-o" => .disjunction
      | "(" => if rest.isEmpty then .operand else .opening
      | ")" => .closing
      | _ => .operand

mutual

/-- Decide alternatives joined by `-o`; also gives the arguments behind them. -/
def alternatives (st : State) : Nat → List String → Except String (Bool × List String)
  | 0, _ => .error "argument expected"
  | fuel + 1, args => do
    let (first, rest) ← requirements st fuel args
    if role rest = .disjunction then
      let (second, rest) ← alternatives st fuel (rest.drop 1)
      return (first || second, rest)
    else return (first, rest)

/-- Decide conditions joined by `-a`. -/
def requirements (st : State) : Nat → List String → Except String (Bool × List String)
  | 0, _ => .error "argument expected"
  | fuel + 1, args => do
    let (first, rest) ← negation st fuel args
    if role rest = .conjunction then
      let (second, rest) ← requirements st fuel (rest.drop 1)
      return (first && second, rest)
    else return (first, rest)

/-- Decide a condition that may be negated. -/
def negation (st : State) : Nat → List String → Except String (Bool × List String)
  | 0, _ => .error "argument expected"
  | fuel + 1, args => do
    if role args = .negation then
      let (b, rest) ← negation st fuel (args.drop 1)
      return (!b, rest)
    else single st fuel args

/-- Decide one test. -/
def single (st : State) : Nat → List String → Except String (Bool × List String)
  | 0, _ => .error "argument expected"
  | fuel + 1, args => do
    match role args, args with
    | .opening, _ :: inner =>
      if role inner = .closing then return (false, inner.drop 1)
      match ← alternatives st fuel inner with
      | (b, ")" :: rest) => return (b, rest)
      | _ => .error "closing paren expected"
    | .unary, operator :: x :: rest => return (← unary st operator x, rest)
    | _, x :: operator :: rest =>
      if binaryOperators.contains operator then
        match rest with
        | y :: rest => return (← binary st x operator y, rest)
        | [] => .error s!"{operator}: argument expected"
      else return (!x.isEmpty, operator :: rest)
    | _, [x] => return (!x.isEmpty, [])
    | _, [] => return (false, [])

end

/-- Decide a condition that uses up all its arguments. -/
def whole (st : State) (args : List String) : Verdict := do
  let (b, rest) ← alternatives st (4 * args.length + 4) args
  let last := args.getD (args.length - rest.length - 1) ""
  if rest.isEmpty then return b else .error s!"{last}: unexpected operator"

/-- Decide a condition, of which the form of three or four arguments settles what they are: a test
of two operands, one in parentheses, or a negated one. `negated` tells that an exclamation mark
stood in front; another one behind it changes nothing. -/
def decideBy (st : State) : Nat → Bool → List String → Verdict
  | 0, negated, args => return (← whole st args) != negated
  | fuel + 1, negated, args => do
    let outer : Verdict :=
      if args.head? = some "(" && args.getLast? = some ")" then do
        return (← whole st (args.drop 1).dropLast) != negated
      else if args.head? = some "!" then decideBy st fuel true (args.drop 1)
      else do return (← whole st args) != negated
    match args with
    | [] => return false
    | [x, operator, y] =>
      if binaryOperators.contains operator then return (← binary st x operator y) != negated
      else outer
    | [_, _, _, _] => outer
    | _ => return (← whole st args) != negated

/-- Evaluate a condition. -/
def evaluate (st : State) (args : List String) : Verdict := decideBy st 2 false args

end CxxScript.Shell.Condition

import CxxScript.Shell.Arithmetic
import CxxScript.Text.Utf8

/-!
# Escapes and formats

What `echo` and `printf` make of their arguments: bytes, since an octal escape may stand for any.
-/

set_option autoImplicit false

namespace CxxScript.Shell.Escape

/-- The bytes of a character. -/
def bytesOf (c : Char) : Bytes := String.utf8EncodeChar c

/-- An octal digit. -/
def isOctal (c : Char) : Bool := '0' ≤ c && c ≤ '7'

/-- The byte that octal digits stand for. -/
def octalByte (digits : List Char) : UInt8 :=
  UInt8.ofNat (digits.foldl (fun n d => n * 8 + (d.toNat - 48)) 0)

/-- The character that a letter behind a backslash stands for. -/
def letter? : Char → Option Char
  | 'a' => some '\x07'
  | 'b' => some '\x08'
  | 'e' => some '\x1b'
  | 'f' => some '\x0c'
  | 'n' => some '\n'
  | 'r' => some '\r'
  | 't' => some '\t'
  | 'v' => some '\x0b'
  | '\\' => some '\\'
  | _ => none

/-- What the text behind a backslash stands for, and what is left; a backslash that escapes nothing
stands for itself. -/
def escape (cs : List Char) : Bytes × List Char :=
  match cs with
  | [] => (bytesOf '\\', [])
  | c :: rest =>
    if isOctal c then
      let digits := (cs.take 3).takeWhile isOctal
      ([octalByte digits], cs.drop digits.length)
    else match letter? c with
      | some d => (bytesOf d, rest)
      | none => (bytesOf '\\', cs)

/-- Expand the escapes of a text; `\c` ends it, which the flag tells. -/
def expand : Nat → List Char → Bytes × Bool
  | 0, _ | _, [] => ([], false)
  | fuel + 1, '\\' :: rest =>
    match rest with
    | 'c' :: _ => ([], true)
    | _ =>
      let rest := match rest with
        | '0' :: d :: more => if isOctal d then d :: more else rest
        | _ => rest
      let (bytes, rest) := escape rest
      let (more, ended) := expand fuel rest
      (bytes ++ more, ended)
  | fuel + 1, c :: rest =>
    let (more, ended) := expand fuel rest
    (bytesOf c ++ more, ended)

/-- What `echo` writes. -/
def echo (args : List String) : Bytes :=
  let (newline, args) := match args with
    | "-n" :: rest => (false, rest)
    | args => (true, args)
  let text := (" ".intercalate args).toList
  let (bytes, ended) := expand text.length text
  if newline && !ended then bytes ++ bytesOf '\n' else bytes

/-- A conversion of a format: flags, width, precision and letter, and how it is spelled. -/
structure Conversion where
  flags : List Char
  width : Nat
  precision : Option Nat
  letter : Char
  spelling : List Char

/-- The number that an argument stands for and what is wrong with it, if anything. Behind a quote
stands a character, which counts as its first byte. -/
def integer (arg : String) : Int × Option String :=
  match arg.toList with
  | [] => (0, none)
  | '\'' :: c :: _ | '"' :: c :: _ => (((bytesOf c).head?.map (·.toNat)).getD 0, none)
  | cs =>
    match Numeral.leading? cs with
    | none => (0, some s!"{arg}: expected numeric value")
    | some (n, []) => (n, none)
    | some (n, _) => (n, some s!"{arg}: not completely converted")

/-- A number as far as the machine's width allows, and the complaint if it does not. -/
def within (least greatest : Int) (arg : String) (n : Int) : Int × Option String :=
  if n < least then (least, some s!"{arg}: Numerical result out of range")
  else if n > greatest then (greatest, some s!"{arg}: Numerical result out of range")
  else (n, none)

/-- A size in a conversion: digits, or an argument in place of a star. -/
def size? (cs : List Char) (args : List String) : Option Int × List Char × List String :=
  match cs with
  | '*' :: rest => (some (integer (args.headD "")).1, rest, args.drop 1)
  | _ =>
    match cs.takeWhile Char.isDigit with
    | [] => (none, cs, args)
    | digits => (some (Int.ofNat (Numeral.value 10 digits)), cs.drop digits.length, args)

/-- Read a conversion behind its percent sign. A width below zero fills up on the right. -/
def conversion? (cs : List Char) (args : List String) :
    Option (Conversion × List Char × List String) :=
  let isFlag (c : Char) : Bool := "-+ #0".toList.contains c
  let flags := cs.takeWhile isFlag
  let (width, rest, args) := size? (cs.dropWhile isFlag) args
  let width := width.getD 0
  let flags := if width < 0 then '-' :: flags else flags
  let (precision, rest, args) := match rest with
    | '.' :: rest =>
      let (n, rest, args) := size? rest args
      (some (n.getD 0), rest, args)
    | rest => (none, rest, args)
  let precision := precision.bind fun n => if n < 0 then none else some n.toNat
  match rest with
  | letter :: rest =>
    let spelling := cs.take (cs.length - rest.length)
    some ({ flags, width := width.natAbs, precision, letter, spelling }, rest, args)
  | [] => none

namespace Conversion

/-- Fill a text up to the width with spaces. -/
def pad {α : Type} (c : Conversion) (blank : α) (text : List α) : List α :=
  let missing := List.replicate (c.width - text.length) blank
  if c.flags.contains '-' then text ++ missing else missing ++ text

/-- A number with its sign or mark in front: at least as many digits as the precision asks for,
or zeros up to the width. -/
def number (c : Conversion) (front digits : List Char) : List Char :=
  let digits := if c.precision = some 0 && digits = ['0'] then [] else digits
  let least := match c.precision with
    | some n => n
    | none =>
      if c.flags.contains '0' && !c.flags.contains '-' then c.width - front.length else 0
  c.pad ' ' (front ++ List.replicate (least - digits.length) '0' ++ digits)

/-- The sign of a number, or what stands in its place. -/
def sign (c : Conversion) (n : Int) : List Char :=
  if n < 0 then ['-'] else if c.flags.contains '+' then ['+']
  else if c.flags.contains ' ' then [' '] else []

/-- What a conversion makes of a number without a sign. -/
def unsigned (c : Conversion) (n : Nat) : List Char :=
  let marked := c.flags.contains '#' && n ≠ 0
  match c.letter with
  | 'x' => c.number (if marked then ['0', 'x'] else []) (Nat.toDigits 16 n)
  | 'X' =>
    c.number (if marked then ['0', 'X'] else []) ((Nat.toDigits 16 n).map Char.toUpper)
  | 'o' => c.number [] (if marked then '0' :: Nat.toDigits 8 n else Nat.toDigits 8 n)
  | _ => c.number [] (Nat.toDigits 10 n)

/-- What a conversion makes of an argument: the bytes, what is wrong with the argument, and whether
it ends the output. There is none for an unknown letter. -/
def bytes? (c : Conversion) (arg : String) : Option (Bytes × Option String × Bool) :=
  let cut (text : Bytes) : Bytes := match c.precision with
    | some n => text.take n
    | none => text
  let (n, complaint) := integer arg
  match c.letter with
  | 's' => some (c.pad 0x20 (cut (arg.toList.flatMap bytesOf)), none, false)
  | 'c' =>
    let first := (arg.toList.head?.map bytesOf).getD [0]
    some (c.pad 0x20 (first.take 1), none, false)
  | 'b' =>
    let (bytes, ended) := expand arg.length arg.toList
    some (c.pad 0x20 (cut bytes), none, ended)
  | 'd' | 'i' =>
    let (n, tooGreat) := within Numeral.least Numeral.greatest arg n
    some ((c.number (c.sign n) (Nat.toDigits 10 n.natAbs)).flatMap bytesOf,
      complaint.or tooGreat, false)
  | 'u' | 'x' | 'X' | 'o' =>
    let (n, tooGreat) := within (1 - Numeral.wordValues) (Numeral.wordValues - 1) arg n
    some ((c.unsigned (n % Numeral.wordValues).toNat).flatMap bytesOf, complaint.or tooGreat, false)
  | _ => none

end Conversion

/-- How writing by a format went. -/
structure Printed where
  bytes : Bytes := []
  complaints : List String := []
  /-- Whether the output ended before the format did. -/
  ended : Bool := false
  /-- Whether the format itself is at fault. -/
  failed : Bool := false

/-- Write the format once, taking arguments as they are needed. -/
def printOnce : Nat → List Char → List String → Printed → Printed × List String
  | 0, _, args, p | _, [], args, p => (p, args)
  | fuel + 1, '\\' :: rest, args, p =>
    let (bytes, rest) := escape rest
    printOnce fuel rest args { p with bytes := p.bytes ++ bytes }
  | fuel + 1, '%' :: '%' :: rest, args, p =>
    printOnce fuel rest args { p with bytes := p.bytes ++ bytesOf '%' }
  | fuel + 1, '%' :: rest, args, p =>
    let fail (complaint : String) : Printed :=
      { p with complaints := p.complaints ++ [complaint], ended := true, failed := true }
    match conversion? rest args with
    | none => (fail "missing format character", args)
    | some (c, rest, args) =>
      match c.bytes? (args.headD "") with
      | none => (fail ("%" ++ String.ofList c.spelling ++ ": invalid directive"), args)
      | some (bytes, complaint, ended) =>
        let p : Printed := { p with
          bytes := p.bytes ++ bytes, complaints := p.complaints ++ complaint.toList, ended }
        if ended then (p, args.tail) else printOnce fuel rest args.tail p
  | fuel + 1, c :: rest, args, p =>
    printOnce fuel rest args { p with bytes := p.bytes ++ bytesOf c }

/-- Write the format again and again while it takes arguments that are left. -/
def printAll : Nat → List Char → List String → Printed → Printed
  | 0, _, _, p => p
  | fuel + 1, format, args, p =>
    let (p, left) := printOnce format.length format args p
    if p.ended || left.isEmpty || left.length = args.length then p
    else printAll fuel format left p

/-- What `printf` writes, and its complaints. -/
def printf (format : String) (args : List String) : Printed :=
  printAll args.length.succ format.toList args {}

end CxxScript.Shell.Escape

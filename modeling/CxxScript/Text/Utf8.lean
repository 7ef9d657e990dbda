/-!
# UTF-8

Files hold bytes; lines, names and messages are text. `encode` writes text, `decodeLossy` reads any
bytes, with one replacement character for each longest start of an encoding that is never finished
(the "maximal subpart" practice of the Unicode standard), and `decode?` reads only what is well
formed.
-/

set_option autoImplicit false

namespace CxxScript

/-- A sequence of bytes. -/
abbrev Bytes := List UInt8

namespace Text.Utf8

/-- The bytes of a text. -/
def encode (text : String) : Bytes := text.toList.flatMap String.utf8EncodeChar

/-- The character that stands for bytes that are no encoding. -/
def replacement : Char := '\uFFFD'

/-- A continuation byte. -/
def isTail (b : UInt8) : Bool := 0x80 ≤ b && b ≤ 0xBF

/-- The bits a continuation byte carries. -/
def tailBits (b : UInt8) : Nat := b.toNat % 0x40

/-- Whether `second` may follow `first` at the start of a three-byte encoding: neither overlong
nor a surrogate. -/
def startsThree (first second : UInt8) : Bool :=
  if first == 0xE0 then 0xA0 ≤ second && second ≤ 0xBF
  else if first == 0xED then 0x80 ≤ second && second ≤ 0x9F
  else 0xE1 ≤ first && first ≤ 0xEF && isTail second

/-- Whether `second` may follow `first` at the start of a four-byte encoding: neither overlong
nor beyond the last code point. -/
def startsFour (first second : UInt8) : Bool :=
  if first == 0xF0 then 0x90 ≤ second && second ≤ 0xBF
  else if first == 0xF4 then 0x80 ≤ second && second ≤ 0x8F
  else 0xF1 ≤ first && first ≤ 0xF3 && isTail second

/-- The first character of some bytes, and how many of the bytes behind the first belong to it; no
character when the bytes begin with the start of an encoding that is not finished. -/
def next (b : UInt8) (rest : Bytes) : Option Char × Nat :=
  if b < 0x80 then (some (Char.ofNat b.toNat), 0)
  else match rest with
    | [] => (none, 0)
    | c :: rest₁ =>
      if 0xC2 ≤ b && b ≤ 0xDF then
        if isTail c then (some (Char.ofNat (b.toNat % 0x20 * 0x40 + tailBits c)), 1)
        else (none, 0)
      else if startsThree b c then
        match rest₁ with
        | [] => (none, 1)
        | d :: _ =>
          if isTail d then
            (some (Char.ofNat ((b.toNat % 0x10 * 0x40 + tailBits c) * 0x40 + tailBits d)), 2)
          else (none, 1)
      else if startsFour b c then
        match rest₁ with
        | [] => (none, 1)
        | d :: rest₂ =>
          if isTail d then
            match rest₂ with
            | [] => (none, 2)
            | e :: _ =>
              if isTail e then
                (some (Char.ofNat
                  (((b.toNat % 0x08 * 0x40 + tailBits c) * 0x40 + tailBits d) * 0x40 +
                    tailBits e)), 3)
              else (none, 2)
          else (none, 1)
      else (none, 0)

/-- The characters of some bytes in order, with `none` for each unfinished start, once a number of
bytes that belong to the character before has been passed over. -/
def charsAfter : Nat → Bytes → List (Option Char)
  | _, [] => []
  | 0, b :: rest => (next b rest).1 :: charsAfter (next b rest).2 rest
  | n + 1, _ :: rest => charsAfter n rest

/-- The characters of some bytes in order, with `none` for each unfinished start. -/
def chars (bytes : Bytes) : List (Option Char) := charsAfter 0 bytes

/-- The text of some bytes, with a replacement character for each unfinished start. -/
def decodeLossy (bytes : Bytes) : String :=
  String.ofList ((chars bytes).map (·.getD replacement))

/-- The text of some bytes, if they are the encoding of one. -/
def decode? (bytes : Bytes) : Option String :=
  let cs := chars bytes
  if cs.all Option.isSome then some (String.ofList (cs.map (·.getD replacement))) else none

end Text.Utf8

end CxxScript

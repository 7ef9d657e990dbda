/-!
# Patterns

A pattern is matched against a whole text: `*` stands for any characters, `?` for one, a bracket
for one of a set, and everything quoted for itself.
-/

set_option autoImplicit false

namespace CxxScript.Shell

/-- Characters of an expanded word, each with whether it is quoted. -/
abbrev Marked := List (Char × Bool)

namespace Marked

/-- A text whose characters are all quoted or all not. -/
def ofChars (quoted : Bool) (cs : List Char) : Marked := cs.map fun c => (c, quoted)

/-- The text without its marks. -/
def text (m : Marked) : String := String.ofList (m.map (·.1))

end Marked

/-- One element of a pattern. -/
inductive Glob where
  | anything
  | anyOne
  | exactly (c : Char)
  | oneOf (negated : Bool) (ranges : List (Char × Char))
  deriving DecidableEq, Repr

namespace Glob

/-- Whether one character fits an element. -/
def accepts : Glob → Char → Bool
  | .anything, _ | .anyOne, _ => true
  | .exactly d, c => c == d
  | .oneOf negated ranges, c => (ranges.any fun r => r.1 ≤ c && c ≤ r.2) != negated

/-- The ranges of a bracket whose inside is given. -/
def ranges : List Char → List (Char × Char)
  | a :: '-' :: b :: rest => (a, b) :: ranges rest
  | a :: rest => (a, a) :: ranges rest
  | [] => []

/-- Take a bracket apart that opens before `m`: what it accepts, and what stands behind it. -/
def bracket? (m : Marked) : Option (Glob × Marked) :=
  let (negated, m) := match m with
    | ('!', false) :: rest => (true, rest)
    | m => (false, m)
  let (first, rest) := (m.take 1, m.drop 1)
  let inside := rest.takeWhile (· ≠ (']', false))
  match rest.dropWhile (· ≠ (']', false)) with
  | [] => none
  | _close :: behind => some (.oneOf negated (ranges ((first ++ inside).map (·.1))), behind)

/-- The pattern that an expanded word spells. -/
def ofMarked : Nat → Marked → List Glob
  | 0, _ => []
  | _, [] => []
  | fuel + 1, (c, quoted) :: rest =>
    if quoted then .exactly c :: ofMarked fuel rest
    else if c == '*' then .anything :: ofMarked fuel rest
    else if c == '?' then .anyOne :: ofMarked fuel rest
    else if c == '[' then
      match bracket? rest with
      | some (glob, behind) => glob :: ofMarked fuel behind
      | none => .exactly c :: ofMarked fuel rest
    else .exactly c :: ofMarked fuel rest

/-- Whether a text fits a pattern. -/
def fits : List Glob → List Char → Bool
  | [], cs => cs.isEmpty
  | .anything :: rest, [] => fits rest []
  | .anything :: rest, c :: cs => fits rest (c :: cs) || fits (.anything :: rest) cs
  | _ :: _, [] => false
  | glob :: rest, c :: cs => glob.accepts c && fits rest cs
  termination_by gs cs => gs.length + cs.length

end Glob

/-- Whether a text fits the pattern that an expanded word spells. -/
def Marked.fits (pattern : Marked) (text : List Char) : Bool :=
  Glob.fits (Glob.ofMarked pattern.length pattern) text

/-- The text without the shortest or longest start that fits the pattern. -/
def Marked.cutStart (pattern : Marked) (longest : Bool) (text : List Char) : List Char :=
  let lengths := List.range (text.length + 1)
  let lengths := if longest then lengths.reverse else lengths
  match lengths.find? fun n => pattern.fits (text.take n) with
  | some n => text.drop n
  | none => text

/-- The text without the shortest or longest end that fits the pattern. -/
def Marked.cutEnd (pattern : Marked) (longest : Bool) (text : List Char) : List Char :=
  let lengths := List.range (text.length + 1)
  let lengths := if longest then lengths else lengths.reverse
  match lengths.find? fun n => pattern.fits (text.drop n) with
  | some n => text.take n
  | none => text

end CxxScript.Shell

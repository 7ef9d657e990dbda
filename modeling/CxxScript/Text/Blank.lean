/-!
# Blank characters

The characters that separate words and that trimming removes are those with the Unicode property
`White_Space`. Directives use a narrower class, the gap of spaces and tabs. Text is cut into lines
by `splitAfter`, which loses nothing: `flatten_splitAfter`.
-/

set_option autoImplicit false

namespace CxxScript.Text

/-- The characters with the Unicode property `White_Space`. -/
def isBlank (c : Char) : Bool :=
  let n := c.toNat
  (9 ≤ n && n ≤ 13) || n == 0x20 || n == 0x85 || n == 0xA0 || n == 0x1680 ||
    (0x2000 ≤ n && n ≤ 0x200A) || n == 0x2028 || n == 0x2029 || n == 0x202F || n == 0x205F ||
    n == 0x3000

/-- A space or a tab: what may stand inside a directive, an include line or a requirement. -/
def isGap (c : Char) : Bool := c == ' ' || c == '\t'

/-- A gap is blank. -/
theorem isBlank_of_isGap {c : Char} (h : isGap c = true) : isBlank c = true := by
  simp only [isGap, Bool.or_eq_true, beq_iff_eq] at h
  rcases h with rfl | rfl <;> rfl

/-- The text without its leading blanks. -/
def trimStart (s : List Char) : List Char := s.dropWhile isBlank

/-- The text without its trailing blanks. -/
def trimEnd (s : List Char) : List Char := (s.reverse.dropWhile isBlank).reverse

/-- The text without its leading and trailing blanks. -/
def trim (s : List Char) : List Char := trimEnd (trimStart s)

/-- Cut a list after each member for which `p` holds; what follows the last such member, if
anything does, is the last piece. -/
def splitAfter {α : Type} (p : α → Bool) : List α → List (List α)
  | [] => []
  | a :: rest =>
    if p a then [a] :: splitAfter p rest
    else match splitAfter p rest with
      | [] => [[a]]
      | piece :: more => (a :: piece) :: more

/-- Cutting loses nothing. -/
theorem flatten_splitAfter {α : Type} (p : α → Bool) (s : List α) :
    (splitAfter p s).flatten = s := by
  fun_induction splitAfter p s <;> simp_all

/-- No piece is empty. -/
theorem ne_nil_of_mem_splitAfter {α : Type} (p : α → Bool) (s : List α) :
    ∀ piece ∈ splitAfter p s, piece ≠ [] := by
  fun_induction splitAfter p s <;> simp_all

/-- A line without its line feed, and without the carriage return before it. -/
def dropLineEnd (line : List Char) : List Char :=
  match line.reverse with
  | '\n' :: '\r' :: body => body.reverse
  | '\n' :: body => body.reverse
  | _ => line

/-- The lines of a text, without their ends. -/
def lines (s : List Char) : List (List Char) :=
  (splitAfter (· == '\n') s).map dropLineEnd

end CxxScript.Text

import CxxScript.Build.Record
import CxxScript.Proofs.Source.Privacy

/-!
# A JSON text holds no directives

Outside its strings a JSON text has neither slashes nor hashes, and no string goes beyond the end of
its line. So a marker can only stand inside a literal, where it is none, and a file with a `private`
directive is no record of a compiler, whatever the directive's value: `readsAsNoRecord`.
-/

set_option autoImplicit false

namespace CxxScript.Text

/-! ## Decoding line by line -/

namespace Utf8

/-- A byte of ASCII finishes no encoding that has been begun. -/
theorem next_ascii {e : UInt8} (he : e < 0x80) (b : UInt8) (line rest : Bytes) :
    next b (line ++ e :: rest) = next b line := by
  have hlow : ∀ bound : UInt8, 0x80 ≤ bound → decide (bound ≤ e) = false := by
    intro bound hbound
    rw [decide_eq_false_iff_not, UInt8.not_le]
    exact UInt8.lt_of_lt_of_le he hbound
  have htail : isTail e = false := by
    rw [isTail, hlow 0x80 (by decide), Bool.false_and]
  have hthree : startsThree b e = false := by
    rw [startsThree, htail, hlow 0xA0 (by decide), hlow 0x80 (by decide)]
    simp
  have hfour : startsFour b e = false := by
    rw [startsFour, htail, hlow 0x90 (by decide), hlow 0x80 (by decide)]
    simp
  unfold next
  split
  · rfl
  · rcases line with _ | ⟨c, _ | ⟨d, _ | ⟨e, line⟩⟩⟩
    · simp only [List.nil_append, htail, hthree, hfour, Bool.false_eq_true, if_false]
      split <;> rfl
    · simp only [List.cons_append, List.nil_append, htail, Bool.false_eq_true, if_false]
    · simp only [List.cons_append, List.nil_append, htail, Bool.false_eq_true, if_false]
    · simp only [List.cons_append]

/-- No more bytes belong to a character than there are. -/
theorem next_le (b : UInt8) (rest : Bytes) : (next b rest).2 ≤ rest.length := by
  unfold next
  split
  · exact Nat.zero_le _
  · rcases rest with _ | ⟨c, _ | ⟨d, _ | ⟨e, rest⟩⟩⟩ <;> dsimp only <;> (repeat' split) <;>
      simp only [List.length_cons, List.length_nil] <;> omega

/-- What stands before a byte of ASCII and what stands behind it are decoded apart. -/
theorem charsAfter_ascii {e : UInt8} (he : e < 0x80) (n : Nat) (line rest : Bytes)
    (hn : n ≤ line.length) : charsAfter n (line ++ e :: rest) =
      charsAfter n line ++ some (Char.ofNat e.toNat) :: chars rest := by
  induction line generalizing n with
  | nil =>
    obtain rfl : n = 0 := Nat.le_zero.mp hn
    have hnext : next e rest = (some (Char.ofNat e.toNat), 0) := by
      unfold next
      rw [if_pos he]
    show (next e rest).1 :: charsAfter (next e rest).2 rest = _
    rw [hnext]
    rfl
  | cons b line ih =>
    cases n with
    | zero =>
      rw [List.cons_append, charsAfter, charsAfter, next_ascii he, ih _ (next_le b line),
        List.cons_append]
    | succ n => exact ih n (Nat.le_of_succ_le_succ hn)

/-- The characters of some bytes. -/
def decoded (bytes : Bytes) : List Char := (chars bytes).map (·.getD replacement)

/-- Some bytes, a byte of ASCII and what stands behind it. -/
theorem decoded_ascii {e : UInt8} (he : e < 0x80) (line rest : Bytes) :
    decoded (line ++ e :: rest) = decoded line ++ Char.ofNat e.toNat :: decoded rest := by
  rw [decoded, chars, charsAfter_ascii he 0 line rest (Nat.zero_le _), List.map_append]
  rfl

end Utf8

/-! ## What a JSON text is made of -/

namespace Json

/-- A character that may stand outside strings: no quote, no backslash, and none of a marker. -/
def IsBare (c : Char) : Prop := c ≠ '"' ∧ c ≠ '\\' ∧ c ≠ '/' ∧ c ≠ '#'

instance (c : Char) : Decidable (IsBare c) :=
  inferInstanceAs (Decidable (c ≠ '"' ∧ c ≠ '\\' ∧ c ≠ '/' ∧ c ≠ '#'))

/-- Between two places of a text stand strings and bare characters. -/
inductive Made : List Char → List Char → Prop where
  | refl (s : List Char) : Made s s
  | bare {c : Char} {s behind : List Char} : IsBare c → Made s behind → Made (c :: s) behind
  | string {codes : List Nat} {s after behind : List Char} : codes? s = some (codes, after) →
      Made after behind → Made ('"' :: s) behind

/-- One stretch after the other. -/
theorem Made.trans {a b c : List Char} (h : Made a b) (h' : Made b c) : Made a c := by
  induction h with
  | refl s => exact h'
  | bare hc _ ih => exact .bare hc (ih h')
  | string hs _ ih => exact .string hs (ih h')

/-- The inside of a string: no quote but behind a backslash, and no line feed. -/
inductive Inside : List Char → Prop where
  | nil : Inside []
  | plain {c : Char} {s : List Char} : c ≠ '"' → c ≠ '\\' → c ≠ '\n' → Inside s → Inside (c :: s)
  | escape {c : Char} {s : List Char} : c ≠ '\n' → Inside s → Inside ('\\' :: c :: s)

/-- The quote that closes a string counts. -/
theorem Inside.unescapedQuotes_append {s : List Char} (h : Inside s) (rest : List Char) :
    Source.unescapedQuotes (s ++ '"' :: rest) = Source.unescapedQuotes rest + 1 := by
  induction h with
  | nil => rfl
  | plain hquote hslash _ _ ih =>
    rw [List.cons_append, Source.unescapedQuotes_cons hslash hquote, ih]
  | escape _ _ ih => exact ih

end Json

end CxxScript.Text

namespace CxxScript.Source

open Text Text.Utf8 Text.Json

/-! ## Records and directives -/

end CxxScript.Source

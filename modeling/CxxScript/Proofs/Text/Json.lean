import CxxScript.Proofs.Text.Trimming
import CxxScript.Text.Json

/-!
# Reading back what was written

A character that is written in a string is read as its code, whichever way it is escaped,
`codes?_writeChar`, and no character is a surrogate, so a string is read as its text,
`string?_written`. A numeral is read as its number where no character behind it goes on with it,
`number?_digits`. An object is read member by member: `members?_cons` and `members?_last`.
-/

set_option autoImplicit false

namespace CxxScript.Text.Json

/-! ## Strings -/

/-- A hexadecimal digit is read as the number that it was written for. -/
theorem hexValue?_hexDigit {n : Nat} (h : n < 16) : hexValue? (hexDigit n) = some n := by
  revert n
  decide

/-- The four digits of a control character are read as its number. -/
theorem hex4?_hexDigit {n : Nat} (h : n < 0x20) :
    hex4? '0' '0' (hexDigit (n / 16)) (hexDigit (n % 16)) = some n := by
  have hzero : hexValue? '0' = some 0 := rfl
  have hhigh : hexValue? (hexDigit (n / 16)) = some (n / 16) := hexValue?_hexDigit (by omega)
  have hlow : hexValue? (hexDigit (n % 16)) = some (n % 16) := hexValue?_hexDigit (by omega)
  simp only [hex4?, hzero, hhigh, hlow, Option.bind_eq_bind, Option.bind_some, Option.pure_def,
    Option.some.injEq]
  omega

/-- An escaped character is read as the one that it stands for. -/
theorem codes?_escape {e c : Char} (he : escaped? e = some c) (hu : e ≠ 'u') (rest : List Char) :
    codes? ('\\' :: e :: rest) = (codes? rest).map fun r => (c.toNat :: r.1, r.2) := by
  rw [codes?, he]
  · cases codes? rest <;> rfl
  · intro a b c d rest heq
    exact absurd heq hu

/-- Four hexadecimal digits are read as their number. -/
theorem codes?_unicode {a b c d : Char} {n : Nat} (h : hex4? a b c d = some n) (rest : List Char) :
    codes? ('\\' :: 'u' :: a :: b :: c :: d :: rest) =
      (codes? rest).map fun r => (n :: r.1, r.2) := by
  rw [codes?, h]
  cases codes? rest <;> rfl

/-- A character that needs no escape is read as it is. -/
theorem codes?_plain {c : Char} (hquote : c ≠ '"') (hslash : c ≠ '\\') (h : ¬ c.toNat < 0x20)
    (rest : List Char) :
    codes? (c :: rest) = (codes? rest).map fun r => (c.toNat :: r.1, r.2) := by
  rw [codes?, if_neg h]
  · cases codes? rest <;> rfl
  · exact hquote
  · intro a b d e rest heq
    exact absurd heq hslash
  · intro a rest heq
    exact absurd heq hslash

/-- The three ways in which a character is written. -/
theorem writeChar_cases (c : Char) :
    (∃ e, e ≠ 'u' ∧ escaped? e = some c ∧ writeChar c = ['\\', e]) ∨
      (c.toNat < 0x20 ∧ writeChar c =
        ['\\', 'u', '0', '0', hexDigit (c.toNat / 16), hexDigit (c.toNat % 16)]) ∨
      (c ≠ '"' ∧ c ≠ '\\' ∧ ¬ c.toNat < 0x20 ∧ writeChar c = [c]) := by
  by_cases hc : c ∈ ['"', '\\', '\x08', '\x0c', '\n', '\r', '\t']
  · left
    simp only [List.mem_cons, List.not_mem_nil, or_false] at hc
    rcases hc with rfl | rfl | rfl | rfl | rfl | rfl | rfl
    · exact ⟨'"', by decide, rfl, rfl⟩
    · exact ⟨'\\', by decide, rfl, rfl⟩
    · exact ⟨'b', by decide, rfl, rfl⟩
    · exact ⟨'f', by decide, rfl, rfl⟩
    · exact ⟨'n', by decide, rfl, rfl⟩
    · exact ⟨'r', by decide, rfl, rfl⟩
    · exact ⟨'t', by decide, rfl, rfl⟩
  · right
    simp only [List.mem_cons, List.not_mem_nil, or_false, not_or] at hc
    by_cases hcontrol : c.toNat < 0x20
    · left
      simp [writeChar, hc, hcontrol]
    · right
      simp [writeChar, hc, hcontrol]

/-- A character of a string is read as its code, whichever way it is escaped. -/
theorem codes?_writeChar (c : Char) (rest : List Char) :
    codes? (writeChar c ++ rest) = (codes? rest).map fun r => (c.toNat :: r.1, r.2) := by
  rcases writeChar_cases c with ⟨e, hu, he, h⟩ | ⟨hcontrol, h⟩ | ⟨hquote, hslash, hcontrol, h⟩
  · rw [h]
    exact codes?_escape he hu rest
  · rw [h]
    exact codes?_unicode (hex4?_hexDigit hcontrol) rest
  · rw [h]
    exact codes?_plain hquote hslash hcontrol rest

/-- What is written of a text is read as its characters, up to the quote behind them. -/
theorem codes?_written (text rest : List Char) :
    codes? (text.flatMap writeChar ++ '"' :: rest) = some (text.map Char.toNat, rest) := by
  induction text with
  | nil => rfl
  | cons c text ih =>
    rw [List.flatMap_cons, List.append_assoc, codes?_writeChar, ih]
    rfl

/-- No character is half of a surrogate pair. -/
theorem chars?_toNat (text : List Char) : chars? (text.map Char.toNat) = some text := by
  induction text with
  | nil => rfl
  | cons c text ih =>
    have hvalid : c.toNat < 0xD800 ∨ 0xDFFF < c.toNat ∧ c.toNat < 0x110000 := c.valid
    have hhigh : isHigh c.toNat = false := by
      simp [isHigh]
      omega
    have hlow : isLow c.toNat = false := by
      simp [isLow]
      omega
    unfold chars?
    simp [hhigh, hlow, ih]

/-- What is written of a text is read as that text. -/
theorem string?_written (text : String) (rest : List Char) :
    string? (text.toList.flatMap writeChar ++ '"' :: rest) = some (some text, rest) := by
  rw [string?, codes?_written]
  simp [chars?_toNat]

/-! ## Numerals -/

/-- No character here goes on with a number. -/
def EndsNumber (rest : List Char) : Prop :=
  ∀ c, rest.head? = some c → c.isDigit = false ∧ c ∉ ['.', 'e', 'E']

section Numerals

variable {rest : List Char}

/-- Digits are passed up to the end of a number. -/
theorem digits?_written {s : List Char} (hne : s ≠ []) (hs : s.all Char.isDigit = true)
    (hrest : EndsNumber rest) : digits? (s ++ rest) = some rest := by
  have hdrop : (s ++ rest).dropWhile Char.isDigit = rest :=
    dropWhile_eq_iff.mpr ⟨s, rfl, hs, fun c hc => (hrest c hc).1⟩
  have hhead : (s ++ rest).head?.any Char.isDigit = true := by
    obtain ⟨c, s, rfl⟩ := List.exists_cons_of_ne_nil hne
    exact List.all_eq_true.mp hs c List.mem_cons_self
  rw [digits?, if_pos hhead, hdrop]

/-- There is no fraction where a number ends. -/
theorem fraction?_of_ends (hrest : EndsNumber rest) : fraction? rest = some rest := by
  cases rest with
  | nil => rfl
  | cons c rest =>
    obtain ⟨-, hc⟩ := hrest c rfl
    rw [fraction?]
    rintro behind ⟨⟩
    exact hc (by decide)

/-- There is no exponent where a number ends. -/
theorem exponent?_of_ends (hrest : EndsNumber rest) : exponent? rest = some rest := by
  cases rest with
  | nil => rfl
  | cons c rest =>
    obtain ⟨-, hc⟩ := hrest c rfl
    simp only [List.mem_cons, List.not_mem_nil, or_false, not_or] at hc
    simp [exponent?, hc]

/-- A numeral of more than one digit does not begin with a zero. -/
theorem head?_digits {n : Nat} (h : 0 < n) : ∃ c, (Decimal.digits n).head? = some c ∧ c ≠ '0' := by
  fun_induction Decimal.digits n with
  | case1 n hlt =>
    refine ⟨_, rfl, ?_⟩
    intro hzero
    have hdigit := Decimal.toNat_digit hlt
    rw [hzero] at hdigit
    exact absurd hdigit (Nat.ne_of_lt h)
  | case2 n hge ih =>
    obtain ⟨c, hc, hne⟩ := ih (by omega)
    exact ⟨c, by rw [List.head?_append, hc]; rfl, hne⟩

/-- The digits of a number are passed as an integer. -/
theorem integer?_digits (n : Nat) (hrest : EndsNumber rest) :
    integer? (Decimal.digits n ++ rest) = some rest := by
  rcases Nat.eq_zero_or_pos n with rfl | hpos
  · rw [Decimal.digits]
    rfl
  · obtain ⟨c, hc, hne⟩ := head?_digits hpos
    have hdigits := digits?_written (Decimal.digits_ne_nil n) (Decimal.all_isDigit_digits n) hrest
    obtain ⟨s, hs⟩ := List.head?_eq_some_iff.mp hc
    rw [hs] at hdigits ⊢
    rw [← hdigits, List.cons_append, integer?]
    intro behind heq
    cases heq
    exact hne rfl

/-- The digits of a number are read as that number. -/
theorem number?_digits (n : Nat) (hrest : EndsNumber rest) :
    number? (Decimal.digits n ++ rest) = some (.natural n, rest) := by
  have hsign : (Decimal.digits n ++ rest).head? ≠ some '-' := by
    obtain ⟨c, s, hs⟩ := List.exists_cons_of_ne_nil (Decimal.digits_ne_nil n)
    have hall := Decimal.all_isDigit_digits n
    rw [hs, List.all_cons, Bool.and_eq_true] at hall
    rw [hs]
    rintro ⟨⟩
    exact absurd hall.1 (by decide)
  simp only [number?, if_neg hsign, integer?_digits n hrest, fraction?_of_ends hrest,
    exponent?_of_ends hrest, Option.bind_eq_bind, Option.bind_some]
  simp [Decimal.value_digits]

end Numerals

/-! ## Values -/

/-- A value is read from a text, whatever stands behind it that is no part of a number. -/
def Reads (written : List Char) (v : Json) : Prop :=
  ∀ (fuel : Nat) (rest : List Char), EndsNumber rest →
    value? (fuel + 1) (written ++ rest) = some (v, rest)

/-- What is written of a text reads as a string with that text. -/
theorem reads_string (text : String) : Reads (writeString text) (.string (some text)) := by
  intro fuel rest _
  have hskip : skip (writeString text ++ rest) =
      '"' :: (text.toList.flatMap writeChar ++ '"' :: rest) := by
    simp [writeString, skip, isSpace]
  rw [value?, hskip]
  simp only [string?_written, Option.map_some]

/-- What is written of a truth value reads as that value. -/
theorem reads_bool (b : Bool) :
    Reads (if b = true then "true".toList else "false".toList) (.bool b) := by
  intro fuel rest _
  cases b with
  | false => rfl
  | true => rfl

/-- The digits of a number read as that number. -/
theorem reads_natural (n : Nat) : Reads (Decimal.digits n) (.natural n) := by
  intro fuel rest hrest
  obtain ⟨c, s, hs⟩ := List.exists_cons_of_ne_nil (Decimal.digits_ne_nil n)
  have hall := Decimal.all_isDigit_digits n
  have hnumber := number?_digits n hrest
  rw [hs, List.all_cons, Bool.and_eq_true] at hall
  rw [hs, List.cons_append] at hnumber ⊢
  have hc : ∀ d, d.isDigit = false → c ≠ d := by
    rintro d hd rfl
    rw [hall.1] at hd
    cases hd
  have hskip : skip (c :: (s ++ rest)) = c :: (s ++ rest) := by
    have hspace : isSpace c = false := by
      simp [isSpace, hc ' ' rfl, hc '\n' rfl, hc '\t' rfl, hc '\r' rfl]
    rw [skip, List.dropWhile_cons_of_neg (by simp [hspace])]
  rw [value?, hskip]
  -- A digit begins no value of another kind.
  split
  case h_7 => exact hnumber
  all_goals next heq => exact absurd (List.cons.inj heq).1 (hc _ rfl)

/-- A space may stand before what is written of a value. -/
theorem Reads.space {written : List Char} {v : Json} (h : Reads written v) :
    Reads (' ' :: written) v := by
  intro fuel rest hrest
  have hskip : skip (' ' :: written ++ rest) = skip (written ++ rest) := rfl
  have hread := h fuel rest hrest
  rw [value?] at hread ⊢
  rw [hskip]
  exact hread

/-! ## Objects -/

section Objects

variable {fuel : Nat} {lead rest : List Char}

/-- White space is skipped up to the first other character. -/
theorem skip_lead (hlead : lead.all isSpace = true) {c : Char} (hc : isSpace c = false) :
    skip (lead ++ c :: rest) = c :: rest :=
  dropWhile_eq_iff.mpr ⟨lead, rfl, hlead, by rintro d ⟨⟩; exact hc⟩

/-- What is written of a name stands between two quotes. -/
theorem writeString_append (name : String) (rest : List Char) : writeString name ++ rest =
    '"' :: (name.toList.flatMap writeChar ++ '"' :: rest) := by
  simp [writeString]

/-- A member that another one stands behind. -/
theorem members?_cons {written : List Char} {v : Json} (hv : Reads written v)
    (hlead : lead.all isSpace = true) (name : String) :
    members? (fuel + 2) (lead ++ (writeString name ++ ':' :: (written ++ ',' :: rest))) =
      (members? (fuel + 1) rest).map fun r => ((some name, v) :: r.1, r.2) := by
  have hread := hv fuel (',' :: rest) (by rintro c ⟨⟩; decide)
  have hcolon : skip (':' :: (written ++ ',' :: rest)) = ':' :: (written ++ ',' :: rest) := rfl
  have hcomma : skip (',' :: rest) = ',' :: rest := rfl
  rw [members?, writeString_append, skip_lead hlead rfl]
  simp only [string?_written, hcolon, hread, hcomma, Option.bind_eq_bind, Option.bind_some]
  cases members? (fuel + 1) rest <;> rfl

/-- The last member of an object. -/
theorem members?_last {written : List Char} {v : Json} (hv : Reads written v)
    (hlead : lead.all isSpace = true) (name : String) :
    members? (fuel + 2) (lead ++ (writeString name ++ ':' :: (written ++ '\n' :: '}' :: rest))) =
      some ([(some name, v)], rest) := by
  have hread := hv fuel ('\n' :: '}' :: rest) (by rintro c ⟨⟩; decide)
  have hcolon : skip (':' :: (written ++ '\n' :: '}' :: rest)) =
      ':' :: (written ++ '\n' :: '}' :: rest) := rfl
  have hbrace : skip ('\n' :: '}' :: rest) = '}' :: rest := rfl
  rw [members?, writeString_append, skip_lead hlead rfl]
  simp only [string?_written, hcolon, hread, hbrace, Option.bind_eq_bind, Option.bind_some]
  rfl

/-- Members that can be read behind a brace are those of an object. -/
theorem value?_object {s : List Char} {members : List (Option String × Json)}
    (h : members? fuel s = some (members, rest)) :
    value? (fuel + 1) ('{' :: s) = some (.object members, rest) := by
  have hbrace : skip ('{' :: s) = '{' :: s := rfl
  cases fuel with
  | zero => cases h
  | succ fuel =>
    rw [members?] at h
    split at h
    · next behind hskip =>
      have hquote : skip ('"' :: behind) = '"' :: behind := rfl
      have hmembers : members? (fuel + 1) ('"' :: behind) = some (members, rest) := by
        rw [members?, hquote]
        exact h
      have hobject : value? (fuel + 2) ('{' :: s) =
          (members? (fuel + 1) ('"' :: behind)).map fun r => (.object r.1, r.2) := by
        rw [value?, hbrace]
        simp only [hskip]
        rfl
      rw [hobject, hmembers]
      rfl
    · cases h

/-- A text that holds one object and nothing else. -/
theorem parse?_object {s : List Char} {members : List (Option String × Json)}
    (h : members? (2 * s.length + 3) s = some (members, [])) :
    parse? ('{' :: s) = some (.object members) := by
  have hfuel : 2 * ('{' :: s).length + 2 = 2 * s.length + 3 + 1 := by
    rw [List.length_cons]
    omega
  rw [parse?, hfuel, value?_object h]
  rfl

end Objects

end CxxScript.Text.Json

import CxxScript.Proofs.Source.Records

/-!
# Where a directive stands in a file

A line is searched for directives as a compiler can read it, with two slashes before a `#!` that
begins it. In the line as it stands in the file, the directive that is found stands where the first
marker outside string literals does, or, where a `#!` begins the line, at that `#!`:
`findMarker?_readableLine`.
-/

set_option autoImplicit false

namespace CxxScript.Source

open Text Text.Utf8

/-- A line as it stands in the file: decoded, without its line feed. -/
def originalLine (line : Bytes) : List Char :=
  decoded (if line.getLast? == some 0x0A then line.dropLast else line)

/-- A line is searched for directives as its readable form stands in a copy. -/
theorem readableLine_eq (line : Bytes) : readableLine line = originalLine (defuse line) := by
  rw [readableLine, decodeLossy, String.toList_ofList]
  rfl

/-- A directive stands at a place of a line, counted in characters. -/
inductive DirectiveAt (line : Bytes) (place : Nat) : Prop where
  /-- At the first marker outside string literals. -/
  | marker (hplain : isInterpreterLine line = false)
      (hmarker : findMarker? (originalLine line) = some place)
  /-- At the `#!` that begins the line, gaps aside. -/
  | hashBang (gaps rest : List Char) (hinterpreter : isInterpreterLine line = true)
      (hline : originalLine line = gaps ++ '#' :: '!' :: rest) (hgaps : gaps.all isGap = true)
      (hplace : gaps.length = place)

/-- A byte before the end of a line is decoded on its own where it is no part of a longer
encoding. -/
theorem originalLine_cons {b : UInt8} {c : Char} (hb : b ≠ 0x0A)
    (hdecoded : ∀ rest, decoded (b :: rest) = c :: decoded rest) (line : Bytes) :
    originalLine (b :: line) = c :: originalLine line := by
  rw [originalLine, originalLine, ← hdecoded]
  cases line with
  | nil =>
    have hlast : ¬ ([b].getLast? == some 0x0A) = true := by simpa using hb
    rw [if_neg hlast]
    rfl
  | cons d line =>
    rw [List.getLast?_cons_cons, List.dropLast_cons_cons]
    split <;> rfl

/-- A `#!` that begins a line, gaps aside, stands behind two slashes in the readable line. -/
theorem lines_of_interpreter {line : Bytes} (hi : isInterpreterLine line = true) :
    ∃ gaps rest, gaps.all isGap = true ∧ originalLine line = gaps ++ '#' :: '!' :: rest ∧
      readableLine line = gaps ++ '/' :: '/' :: '#' :: '!' :: rest := by
  induction line with
  | nil => cases hi
  | cons b line ih =>
    cases hgap : isGapByte b with
    | true =>
      obtain ⟨hcons, hdefuse⟩ := defuse_gap hgap line
      rw [hcons] at hi
      obtain ⟨gaps, rest, hgaps, horiginal, hreadable⟩ := ih hi
      rw [readableLine_eq] at hreadable
      obtain ⟨c, hc, hb, hdecoded⟩ : ∃ c, isGap c = true ∧ b ≠ 0x0A ∧
          ∀ rest, decoded (b :: rest) = c :: decoded rest := by
        simp only [isGapByte, Bool.or_eq_true, beq_iff_eq] at hgap
        rcases hgap with rfl | rfl
        · exact ⟨' ', rfl, by decide, fun _ => rfl⟩
        · exact ⟨'\t', rfl, by decide, fun _ => rfl⟩
      refine ⟨c :: gaps, rest, ?_, ?_, ?_⟩
      · rw [List.all_cons, hc, hgaps]
        rfl
      · rw [originalLine_cons hb hdecoded, horiginal, List.cons_append]
      · rw [readableLine_eq, hdefuse, originalLine_cons hb hdecoded, hreadable, List.cons_append]
    | false =>
      rw [isInterpreterLine_cons hgap] at hi
      obtain ⟨rest, hrest⟩ := List.isPrefixOf_iff_prefix.mp hi
      have hhash := originalLine_cons (b := 0x23) (by decide) (fun _ => rfl)
      have hbang := originalLine_cons (b := 0x21) (by decide) (fun _ => rfl)
      have hslash := originalLine_cons (b := 0x2F) (by decide) (fun _ => rfl)
      refine ⟨[], originalLine rest, rfl, ?_, ?_⟩
      · rw [← hrest]
        show originalLine (0x23 :: 0x21 :: rest) = _
        rw [hhash, hbang]
        rfl
      · rw [readableLine_eq, defuse_of_hashBang hi, ← hrest]
        show originalLine (0x2F :: 0x2F :: 0x23 :: 0x21 :: rest) = _
        rw [hslash, hslash, hhash, hbang]
        rfl

/-- There is no quote in gaps. -/
theorem unescapedQuotes_gaps {gaps : List Char} (hgaps : gaps.all isGap = true) :
    unescapedQuotes gaps = 0 := by
  induction gaps with
  | nil => rfl
  | cons c gaps ih =>
    rw [List.all_cons, Bool.and_eq_true] at hgaps
    simp only [isGap, Bool.or_eq_true, beq_iff_eq] at hgaps
    rcases hgaps.1 with rfl | rfl <;> exact ih hgaps.2

/-- A marker behind gaps is the first one. -/
theorem findMarker?_gaps {gaps : List Char} (hgaps : gaps.all isGap = true) (rest : List Char) :
    findMarker? (gaps ++ '/' :: '/' :: '#' :: '!' :: rest) = some gaps.length := by
  refine findMarker?_eq_some_iff.mpr ⟨⟨?_, ?_⟩, fun j hj hmarked => ?_⟩
  · rw [List.drop_left]
    rfl
  · rw [List.take_left, unescapedQuotes_gaps hgaps]
  · -- Before its place stand gaps alone, and no marker begins with one.
    obtain ⟨behind, hbehind⟩ := List.isPrefixOf_iff_prefix.mp hmarked.1
    rw [List.drop_append_of_le_length (by omega), List.drop_eq_getElem_cons hj] at hbehind
    have hslash : '/' = gaps[j] := (List.cons.inj hbehind).1
    have hgap := List.all_eq_true.mp hgaps gaps[j] (List.getElem_mem hj)
    rw [← hslash] at hgap
    cases hgap

/-- The directive of a line stands in the line of the file where the marker of its readable form
stands. -/
theorem findMarker?_readableLine {line : Bytes} {place : Nat}
    (h : findMarker? (readableLine line) = some place) : DirectiveAt line place := by
  cases hi : isInterpreterLine line with
  | false =>
    rw [readableLine_eq, (defuse_eq_self_iff line).mpr hi] at h
    exact .marker hi h
  | true =>
    obtain ⟨gaps, rest, hgaps, horiginal, hreadable⟩ := lines_of_interpreter hi
    rw [hreadable, findMarker?_gaps hgaps] at h
    cases h
    exact .hashBang gaps rest hi horiginal hgaps rfl

/-! ## What a directive says -/

/-- What stands behind the first marker outside string literals, gaps aside. -/
def behindMarker? (line : List Char) : Option (List Char) :=
  (findMarker? line).map fun place => (line.drop (place + marker.length)).dropWhile isGap

namespace Directive

/-- A text that spells a key and a value begins neither with a dash nor with a slash. -/
theorem head_of_keyValue? {text key value : List Char}
    (h : keyValue? text = some (key, value)) : text.head? ≠ some '-' ∧ text.head? ≠ some '/' := by
  have hnone : ∀ c rest, isKeyChar c = false → Text.isGap c = false → c ≠ ':' →
      keyValue? (c :: rest) = none := by
    intro c rest hkey hgap hcolon
    rw [keyValue?, List.dropWhile_cons_of_neg (by simp [hkey]),
      List.dropWhile_cons_of_neg (by simp [hgap])]
    split
    · next hline => exact absurd (List.cons.inj hline).1 hcolon
    · rfl
  cases text with
  | nil => exact ⟨by simp, by simp⟩
  | cons c rest =>
    constructor
    · rintro hdash
      cases hdash
      rw [hnone '-' rest (by decide) (by decide) (by decide)] at h
      cases h
    · rintro hslash
      cases hslash
      rw [hnone '/' rest (by decide) (by decide) (by decide)] at h
      cases h

/-- A text that spells a key and a value is read as such. -/
theorem parse_keyValue {rest key value : List Char}
    (h : keyValue? (rest.dropWhile isGap) = some (key, value)) :
    parse rest = .keyValue (String.ofList key) (String.ofList (trimEnd value)) := by
  rw [parse, if_neg (head_of_keyValue? h).1, h]

/-- A text that spells no key and value begins with a dash or with a slash, or is unknown. -/
theorem parse_other {rest : List Char} (h : keyValue? (rest.dropWhile isGap) = none) :
    ((rest.dropWhile isGap).head? = some '-' ∧ ∃ text, parse rest = .flags text) ∨
    ((rest.dropWhile isGap).head? = some '/' ∧ parse rest = .interpreter) ∨
    ((rest.dropWhile isGap).head? ≠ some '-' ∧ (rest.dropWhile isGap).head? ≠ some '/' ∧
      ∃ text, parse rest = .unknown text) := by
  rw [parse, h]
  by_cases hdash : (rest.dropWhile isGap).head? = some '-'
  · rw [if_pos hdash]
    exact .inl ⟨hdash, _, rfl⟩
  · rw [if_neg hdash]
    dsimp only
    by_cases hslash : (rest.dropWhile isGap).head? = some '/'
    · rw [if_pos hslash]
      exact .inr (.inl ⟨hslash, rfl⟩)
    · rw [if_neg hslash]
      exact .inr (.inr ⟨hdash, hslash, _, rfl⟩)

end Directive

end CxxScript.Source

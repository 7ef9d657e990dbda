import CxxScript.Proofs.Source.Privacy
import CxxScript.Proofs.Text.Utf8
import CxxScript.Source.Diagnostic
import Mathlib.Data.Nat.Find
import Mathlib.Tactic.IntervalCases

/-!
# Markers and string literals

`findMarker?` counts, for each marker on a line, the quotes before it anew. One pass over the line
that remembers whether a literal is open, and whether a backslash takes what comes next, finds the
same marker: `findMarker?_eq_firstOutside?`. The characters of a marker are ASCII, so wherever its
bytes stand among those of a line, the line can be cut before and behind them:
`prefix_drop_bytes_iff`.
-/

set_option autoImplicit false

namespace CxxScript

namespace Text.Utf8

/-- The bytes of some characters. -/
def bytes (s : List Char) : Bytes := s.flatMap String.utf8EncodeChar

/-- No character has no bytes. -/
@[simp] theorem bytes_nil : bytes [] = [] := rfl

/-- The bytes of the first character stand before those of the others. -/
@[simp] theorem bytes_cons (c : Char) (s : List Char) :
    bytes (c :: s) = String.utf8EncodeChar c ++ bytes s := List.flatMap_cons

/-- The bytes of two texts stand one behind the other. -/
@[simp] theorem bytes_append (a b : List Char) : bytes (a ++ b) = bytes a ++ bytes b :=
  List.flatMap_append

/-- A character of ASCII is encoded by its own number. -/
theorem utf8EncodeChar_ascii {c : Char} (hc : c.toNat < 0x80) :
    String.utf8EncodeChar c = [UInt8.ofNat c.toNat] := by
  have hb := toNat_ofNat (n := c.toNat) (by omega)
  have hone := encodeChar_one (b := UInt8.ofNat c.toNat) (by omega)
  rwa [hb, Char.ofNat_toNat] at hone

/-- A byte of ASCII is the whole encoding of the character in whose encoding it stands. -/
theorem utf8EncodeChar_of_mem {c d : Char} (hc : c.toNat < 0x80)
    (h : UInt8.ofNat c.toNat ∈ String.utf8EncodeChar d) : d = c := by
  have hb := toNat_ofNat (n := c.toNat) (by omega)
  exact Char.toNat_inj.mp ((toNat_of_mem_encodeChar (by omega) h).trans hb)

/-- Where the bytes of a text begin with those of characters of ASCII, the text begins with these
characters. -/
theorem exists_of_bytes_prefix {text line : List Char} (hascii : ∀ c ∈ text, c.toNat < 0x80)
    (h : bytes text <+: bytes line) : ∃ rest, line = text ++ rest := by
  induction text generalizing line with
  | nil => exact ⟨line, rfl⟩
  | cons c text ih =>
    have hc := hascii c List.mem_cons_self
    rw [bytes_cons, utf8EncodeChar_ascii hc, List.singleton_append] at h
    cases line with
    | nil => simp at h
    | cons d line =>
      obtain ⟨b, tail, htail⟩ := List.exists_cons_of_ne_nil (String.utf8EncodeChar_ne_nil (c := d))
      rw [bytes_cons, htail, List.cons_append, List.cons_prefix_cons] at h
      obtain ⟨rfl, hrest⟩ := h
      have hd : d = c := utf8EncodeChar_of_mem hc (by rw [htail]; exact List.mem_cons_self)
      subst hd
      rw [utf8EncodeChar_ascii hc] at htail
      obtain rfl : tail = [] := (List.cons.inj htail).2.symm
      obtain ⟨rest, rfl⟩ := ih (fun c hc => hascii c (List.mem_cons_of_mem _ hc)) hrest
      exact ⟨rest, rfl⟩

/-- Where the bytes of characters of ASCII stand among those of a text, these characters stand in
the text: their bytes are part of no other character. -/
theorem exists_of_bytes_infix {text line : List Char} {offset : Nat} (hne : text ≠ [])
    (hascii : ∀ c ∈ text, c.toNat < 0x80) (h : bytes text <+: (bytes line).drop offset) :
    ∃ before rest, line = before ++ (text ++ rest) ∧ offset = (bytes before).length := by
  induction line generalizing offset with
  | nil =>
    obtain ⟨c, text, rfl⟩ := List.exists_cons_of_ne_nil hne
    rw [bytes_cons, utf8EncodeChar_ascii (hascii c List.mem_cons_self)] at h
    simp at h
  | cons d line ih =>
    rw [bytes_cons] at h
    by_cases hoffset : (String.utf8EncodeChar d).length ≤ offset
    · rw [List.drop_append, List.drop_eq_nil_of_le hoffset, List.nil_append] at h
      obtain ⟨before, rest, rfl, hlength⟩ := ih h
      refine ⟨d :: before, rest, rfl, ?_⟩
      rw [bytes_cons, List.length_append, ← hlength]
      omega
    · -- The first byte stands in the encoding of `d`, so it is the whole of it.
      obtain ⟨c, text, rfl⟩ := List.exists_cons_of_ne_nil hne
      have hc := hascii c List.mem_cons_self
      rw [Nat.not_le] at hoffset
      have hmem : UInt8.ofNat c.toNat ∈ String.utf8EncodeChar d := by
        rw [List.drop_append_of_le_length hoffset.le, List.drop_eq_getElem_cons hoffset,
          bytes_cons, utf8EncodeChar_ascii hc, List.singleton_append, List.cons_append,
          List.cons_prefix_cons] at h
        rw [h.1]
        exact List.getElem_mem hoffset
      have hd := utf8EncodeChar_of_mem hc hmem
      rw [hd, utf8EncodeChar_ascii hc, List.length_singleton] at hoffset
      obtain rfl : offset = 0 := by omega
      rw [List.drop_zero, ← bytes_cons] at h
      obtain ⟨rest, hline⟩ := exists_of_bytes_prefix hascii h
      exact ⟨[], rest, hline, rfl⟩

end Text.Utf8

namespace Source

open Text.Utf8

/-! ## One pass over a line -/

/-- What a pass over a line remembers: whether a string literal is open, and whether a backslash
takes the next character. -/
structure Literal where
  isOpen : Bool := false
  escaped : Bool := false
  deriving DecidableEq, Repr

namespace Literal

/-- Pass one character. -/
def step (s : Literal) (c : Char) : Literal :=
  if s.escaped then { s with escaped := false }
  else if c = '\\' then { s with escaped := true }
  else if c = '"' then { s with isOpen := !s.isOpen }
  else s

/-- Pass a text. -/
def after (s : Literal) (text : List Char) : Literal := text.foldl step s

/-- To pass nothing changes nothing. -/
@[simp] theorem after_nil (s : Literal) : s.after [] = s := rfl

/-- The first character is passed before the others. -/
@[simp] theorem after_cons (s : Literal) (c : Char) (text : List Char) :
    s.after (c :: text) = (s.step c).after text := rfl

/-- A literal is open behind a text that has an odd number of quotes which no backslash takes. -/
theorem isOpen_after {s : Literal} (hs : s.escaped = false) (text : List Char) :
    (s.after text).isOpen = (s.isOpen != (unescapedQuotes text % 2 == 1)) := by
  fun_induction unescapedQuotes text generalizing s with
  | case1 => simp
  | case2 c rest ih =>
    have hpair : (s.step '\\').step c = s := by
      cases s
      simp_all [step]
    rw [after_cons, after_cons, hpair, ih hs]
  | case3 rest ih =>
    have hstep : s.step '"' = { s with isOpen := !s.isOpen } := by simp [step, hs]
    rw [after_cons, hstep, ih (s := { s with isOpen := !s.isOpen }) hs]
    rcases Nat.mod_two_eq_zero_or_one (unescapedQuotes rest) with h | h <;>
      simp [Nat.add_mod, h]
  | case4 c rest hslash hquote ih =>
    by_cases hc : c = '\\'
    · -- A backslash at the end of the text takes nothing.
      subst hc
      cases rest with
      | nil => simp [step, hs, unescapedQuotes]
      | cons d rest => exact absurd rfl (hslash d rest rfl)
    · have hstep : s.step c = s := by
        have hq : c ≠ '"' := hquote
        simp [step, hs, hc, hq]
      rw [after_cons, hstep, ih hs]

end Literal

/-- The first place at which a marker begins while the pass is outside string literals. -/
def firstOutside? : Literal → List Char → Option Nat
  | _, [] => none
  | s, c :: rest =>
    if marker.isPrefixOf (c :: rest) && !s.isOpen then some 0
    else (firstOutside? (s.step c) rest).map (· + 1)

/-- A marker begins at a place while a pass that begins with `s` is outside string literals. -/
def OutsideFrom (s : Literal) (line : List Char) (place : Nat) : Prop :=
  marker <+: line.drop place ∧ (s.after (line.take place)).isOpen = false

/-- At the start of a line a marker begins outside when no literal is open there. -/
theorem outsideFrom_zero {s : Literal} {line : List Char} :
    OutsideFrom s line 0 ↔ marker <+: line ∧ s.isOpen = false := Iff.rfl

/-- Behind the first character the pass goes on. -/
theorem outsideFrom_succ {s : Literal} {c : Char} {line : List Char} {place : Nat} :
    OutsideFrom s (c :: line) (place + 1) ↔ OutsideFrom (s.step c) line place := Iff.rfl

/-- No marker begins in an empty line. -/
theorem not_outsideFrom_nil {s : Literal} {place : Nat} : ¬ OutsideFrom s [] place := by
  rintro ⟨hmarker, -⟩
  rw [List.drop_nil, List.prefix_nil] at hmarker
  cases hmarker

/-- The pass finds the first place at which a marker begins outside string literals. -/
theorem firstOutside?_eq_some_iff {s : Literal} {line : List Char} {place : Nat} :
    firstOutside? s line = some place ↔
      OutsideFrom s line place ∧ ∀ j < place, ¬ OutsideFrom s line j := by
  induction line generalizing s place with
  | nil =>
    refine ⟨fun h => ?_, fun ⟨h, _⟩ => absurd h not_outsideFrom_nil⟩
    cases h
  | cons c line ih =>
    have hhere : (marker.isPrefixOf (c :: line) && !s.isOpen) = true ↔
        OutsideFrom s (c :: line) 0 := by
      rw [Bool.and_eq_true, List.isPrefixOf_iff_prefix, Bool.not_eq_true', outsideFrom_zero]
    rw [firstOutside?]
    split
    · next h =>
      have hzero := hhere.mp h
      constructor
      · intro hplace
        cases hplace
        exact ⟨hzero, fun j hj => absurd hj (Nat.not_lt_zero j)⟩
      · rintro ⟨-, hbefore⟩
        cases place with
        | zero => rfl
        | succ place => exact absurd hzero (hbefore 0 (Nat.succ_pos place))
    · next h =>
      have hzero := mt hhere.mpr h
      rw [Option.map_eq_some_iff]
      constructor
      · rintro ⟨place, hplace, rfl⟩
        obtain ⟨houtside, hbefore⟩ := ih.mp hplace
        refine ⟨outsideFrom_succ.mpr houtside, fun j hj => ?_⟩
        cases j with
        | zero => exact hzero
        | succ j => exact hbefore j (Nat.lt_of_succ_lt_succ hj)
      · rintro ⟨houtside, hbefore⟩
        cases place with
        | zero => exact absurd houtside hzero
        | succ place =>
          exact ⟨place, ih.mpr ⟨houtside, fun j hj => hbefore (j + 1) (Nat.succ_lt_succ hj)⟩, rfl⟩

/-- Outside string literals is behind an even number of quotes that no backslash takes. -/
theorem outsideFrom_iff_markedAt {line : List Char} {place : Nat} :
    OutsideFrom {} line place ↔ MarkedAt line place := by
  rw [OutsideFrom, MarkedAt, List.isPrefixOf_iff_prefix, Literal.isOpen_after rfl]
  refine and_congr_right fun _ => ?_
  rcases Nat.mod_two_eq_zero_or_one (unescapedQuotes (line.take place)) with h | h <;> simp [h]

/-- Counting the quotes before each marker finds the marker that one pass finds. -/
theorem findMarker?_eq_firstOutside? (line : List Char) :
    findMarker? line = firstOutside? {} line := by
  ext place
  rw [findMarker?_eq_some_iff, firstOutside?_eq_some_iff]
  simp only [outsideFrom_iff_markedAt]

/-- No marker is found just where none begins outside string literals. -/
theorem findMarker?_eq_none_iff {line : List Char} :
    findMarker? line = none ↔ ∀ place, ¬ MarkedAt line place := by
  constructor
  · intro hnone place hmarked
    classical
    have hex : ∃ place, MarkedAt line place := ⟨place, hmarked⟩
    have hfound : findMarker? line = some (Nat.find hex) :=
      findMarker?_eq_some_iff.mpr ⟨Nat.find_spec hex, fun j hj => Nat.find_min hex hj⟩
    rw [hnone] at hfound
    cases hfound
  · intro hnot
    rw [Option.eq_none_iff_forall_ne_some]
    intro place hplace
    exact hnot place (findMarker?_eq_some_iff.mp hplace).1

/-- No marker begins inside another one. -/
theorem not_marker_inside {k : Nat} (hpos : 0 < k) (hk : k < marker.length) (rest : List Char) :
    ¬ marker <+: (marker ++ rest).drop k := by
  have hlength : marker.length = 4 := rfl
  rw [hlength] at hk
  interval_cases k <;> simp [marker]

/-- The places of markers are as far apart as a marker is long. -/
theorem markerPlaces_apart (line : List Char) :
    (markerPlaces line).Pairwise fun i j => i + marker.length ≤ j := by
  have hmem : ∀ {i}, i ∈ markerPlaces line → marker <+: line.drop i := fun hi =>
    List.isPrefixOf_iff_prefix.mp (List.mem_filter.mp hi).2
  have hlt : (markerPlaces line).Pairwise (· < ·) :=
    List.Pairwise.filter _ List.pairwise_lt_range
  refine hlt.imp_of_mem fun {i j} hi hj hij => ?_
  by_contra hclose
  obtain ⟨rest, hrest⟩ := hmem hi
  refine not_marker_inside (k := j - i) (by omega) (by omega) rest ?_
  rw [hrest, List.drop_drop, Nat.add_sub_cancel' hij.le]
  exact hmem hj

/-! ## Where a line can be cut -/

/-- Before a byte offset stand the bytes of the characters before a place, and no others. -/
def CutAt (line : List Char) (offset place : Nat) : Prop :=
  ∃ before rest, line = before ++ rest ∧ offset = (bytes before).length ∧ place = before.length

/-- A line is cut between two parts of it. -/
theorem cutAt_append (before rest : List Char) :
    CutAt (before ++ rest) (bytes before).length before.length :=
  ⟨before, rest, rfl, rfl, rfl⟩

/-- A line is cut before its first character or behind it. -/
theorem cutAt_cons_iff {c : Char} {line : List Char} {offset place : Nat} :
    CutAt (c :: line) offset place ↔ (offset = 0 ∧ place = 0) ∨
      (c.utf8Size ≤ offset ∧ ∃ p, CutAt line (offset - c.utf8Size) p ∧ p + 1 = place) := by
  constructor
  · rintro ⟨before, rest, hline, rfl, rfl⟩
    cases before with
    | nil => exact .inl ⟨rfl, rfl⟩
    | cons d before =>
      obtain ⟨rfl, rfl⟩ := List.cons.inj hline
      rw [bytes_cons, List.length_append, String.length_utf8EncodeChar, Nat.add_sub_cancel_left]
      exact .inr ⟨Nat.le_add_right _ _, before.length, cutAt_append before rest, rfl⟩
  · rintro (⟨rfl, rfl⟩ | ⟨hsize, p, ⟨before, rest, rfl, hoffset, rfl⟩, rfl⟩)
    · exact ⟨[], c :: line, rfl, rfl, rfl⟩
    · refine ⟨c :: before, rest, rfl, ?_, rfl⟩
      rw [bytes_cons, List.length_append, String.length_utf8EncodeChar]
      omega

/-- Characters are counted just where the line can be cut. -/
theorem charsBefore?_eq_some_iff {line : List Char} {offset place : Nat} :
    Position.charsBefore? line offset = some place ↔ CutAt line offset place := by
  induction line generalizing offset place with
  | nil => cases offset <;> simp [Position.charsBefore?, CutAt, eq_comm]
  | cons c line ih =>
    have hpos := c.utf8Size_pos
    rw [cutAt_cons_iff]
    cases offset with
    | zero =>
      rw [Position.charsBefore?, Option.some.injEq, eq_comm]
      omega
    | succ offset =>
      rw [Position.charsBefore?]
      · split
        · next hsize => simp [ih, hsize]
        · next hsize => simp [hsize]
      · exact Nat.succ_ne_zero offset

/-- What stands before the cut and what stands behind it. -/
theorem CutAt.bytes_eq {line : List Char} {offset place : Nat} (h : CutAt line offset place) :
    (bytes line).take offset = bytes (line.take place) ∧
      (bytes line).drop offset = bytes (line.drop place) := by
  obtain ⟨before, rest, rfl, rfl, rfl⟩ := h
  rw [bytes_append, List.take_left, List.take_left, List.drop_left, List.drop_left]
  exact ⟨rfl, rfl⟩

/-- More bytes stand before a cut where more characters do. -/
theorem CutAt.offset_le {line : List Char} {offset offset' place place' : Nat}
    (h : CutAt line offset place) (h' : CutAt line offset' place') (hplace : place ≤ place') :
    offset ≤ offset' := by
  obtain ⟨before, rest, hline, rfl, rfl⟩ := h
  obtain ⟨before', rest', hline', rfl, rfl⟩ := h'
  have hprefix : before <+: before' :=
    List.prefix_of_prefix_length_le ⟨rest, hline.symm⟩ ⟨rest', hline'.symm⟩ hplace
  obtain ⟨between, rfl⟩ := hprefix
  rw [bytes_append, List.length_append]
  exact Nat.le_add_right _ _

/-- The characters of the marker are of ASCII. -/
theorem marker_ascii : ∀ c ∈ marker, c.toNat < 0x80 := by simp [marker]

/-- The bytes of a marker stand among those of a line where the line has a marker, and the line can
be cut there and behind the marker. -/
theorem prefix_drop_bytes_iff {line : List Char} {offset : Nat} :
    bytes marker <+: (bytes line).drop offset ↔
      ∃ place, marker <+: line.drop place ∧ CutAt line offset place ∧
        CutAt line (offset + (bytes marker).length) (place + marker.length) := by
  constructor
  · intro h
    obtain ⟨before, rest, rfl, rfl⟩ := exists_of_bytes_infix (by decide) marker_ascii h
    refine ⟨before.length, ?_, cutAt_append before _, ?_⟩
    · rw [List.drop_left]
      exact List.prefix_append _ _
    · rw [← List.append_assoc, ← List.length_append, ← List.length_append, ← bytes_append]
      exact cutAt_append (before ++ marker) rest
  · rintro ⟨place, ⟨rest, hrest⟩, hcut, -⟩
    rw [hcut.bytes_eq.2, ← hrest, bytes_append]
    exact List.prefix_append _ _

/-- What stands at a place of a line stands among its bytes. -/
theorem exists_prefix_drop_bytes {line : List Char} {place : Nat} (h : MarkedAt line place) :
    ∃ offset, CutAt line offset place ∧ bytes marker <+: (bytes line).drop offset := by
  have hplace : (line.take place).length = place := by
    have hroom := h.length_le
    rw [List.length_take]
    omega
  have hcut : CutAt line (bytes (line.take place)).length place :=
    ⟨line.take place, line.drop place, (List.take_append_drop ..).symm, rfl, hplace.symm⟩
  obtain ⟨rest, hrest⟩ := List.isPrefixOf_iff_prefix.mp h.1
  refine ⟨_, hcut, ?_⟩
  rw [hcut.bytes_eq.2, ← hrest, bytes_append]
  exact List.prefix_append _ _

/-- The marker at a place of a line is read at a byte offset. -/
structure ReadAt (line : List Char) (place offset : Nat) : Prop where
  /-- No character is cut before the marker. -/
  start : Position.charsBefore? line offset = some place
  /-- No character is cut behind the marker. -/
  stop : Position.charsBefore? line (offset + (bytes marker).length) = some (place + marker.length)
  before : (bytes line).take offset = bytes (line.take place)
  stands : bytes marker <+: (bytes line).drop offset
  behind : (bytes line).drop (offset + (bytes marker).length) =
    bytes (line.drop (place + marker.length))
  /-- Where the bytes of a marker stand earlier, a string literal is open. -/
  inside : ∀ earlier < offset, bytes marker <+: (bytes line).drop earlier →
    ∃ j < place, CutAt line earlier j ∧ (Literal.after {} (line.take j)).isOpen = true
  directive : ∀ index, Scan.directiveOn? index line =
    some (.ofOffset index (String.ofList line) offset, .parse (line.drop (place + marker.length)))

/-- The marker that is found is read at a byte offset. -/
theorem exists_readAt {line : List Char} {place : Nat} (h : findMarker? line = some place) :
    ∃ offset, ReadAt line place offset := by
  obtain ⟨hmarked, hfirst⟩ := findMarker?_eq_some_iff.mp h
  obtain ⟨offset, hcut, hstands⟩ := exists_prefix_drop_bytes hmarked
  have hstart := charsBefore?_eq_some_iff.mpr hcut
  obtain ⟨place', -, hcut', hstop⟩ := prefix_drop_bytes_iff.mp hstands
  obtain rfl : place = place' :=
    Option.some.inj (hstart.symm.trans (charsBefore?_eq_some_iff.mpr hcut'))
  refine ⟨offset, hstart, charsBefore?_eq_some_iff.mpr hstop, hcut.bytes_eq.1, hstands,
    hstop.bytes_eq.2, fun earlier hearlier hmarker => ?_, fun index => ?_⟩
  · obtain ⟨j, hj, hcutj, -⟩ := prefix_drop_bytes_iff.mp hmarker
    have hlt : j < place := by
      by_contra hle
      have hoffset := hcut.offset_le hcutj (Nat.le_of_not_lt hle)
      omega
    refine ⟨j, hlt, hcutj, ?_⟩
    by_contra hclosed
    have houtside : OutsideFrom {} line j := ⟨hj, Bool.not_eq_true _ ▸ hclosed⟩
    exact hfirst j hlt (outsideFrom_iff_markedAt.mp houtside)
  · rw [Scan.directiveOn?, h, Option.map_some, Position.ofOffset, String.toList_ofList, hstart]
    rfl

/-- Which marker of a line is found, and where it is read. -/
structure FindsOutside (line : List Char) : Prop where
  /-- One pass over the line finds it. -/
  pass : findMarker? line = firstOutside? {} line
  /-- It is the first one that begins outside string literals. -/
  first : ∀ place, findMarker? line = some place ↔
    OutsideFrom {} line place ∧ ∀ j < place, ¬ OutsideFrom {} line j
  /-- None is found where none begins outside. -/
  missing : findMarker? line = none ↔ ∀ place, ¬ OutsideFrom {} line place
  /-- No two markers share a character. -/
  apart : (markerPlaces line).Pairwise (fun i j => i + marker.length ≤ j)
  /-- The line can be cut before and behind a marker, whatever its characters. -/
  cut : ∀ offset, bytes marker <+: (bytes line).drop offset ↔
    ∃ place, marker <+: line.drop place ∧ CutAt line offset place ∧
      CutAt line (offset + (bytes marker).length) (place + marker.length)
  read : ∀ place, findMarker? line = some place → ∃ offset, ReadAt line place offset

/-- The marker that is found is the first one that begins while one pass over the line is outside
string literals. -/
theorem findMarker?_outside_literals (line : List Char) : FindsOutside line where
  pass := findMarker?_eq_firstOutside? line
  first place := by rw [findMarker?_eq_firstOutside?, firstOutside?_eq_some_iff]
  missing := by simp only [findMarker?_eq_none_iff, outsideFrom_iff_markedAt]
  apart := markerPlaces_apart line
  cut _ := prefix_drop_bytes_iff
  read _ := exists_readAt

/-- A line with a marker inside a literal and one behind a quote that a backslash takes. -/
def quotedLine : List Char := "ü \"//#!\" \\\"//#! -O2".toList

/-- The second marker is found, one byte farther than its place, as one character has two bytes. -/
theorem findMarker?_outside_literals_quoted :
    findMarker? quotedLine = some 11 ∧ ReadAt quotedLine 11 12 := by
  have hplace : findMarker? quotedLine = some 11 := by decide
  obtain ⟨offset, hoffset⟩ := (findMarker?_outside_literals quotedLine).read 11 hplace
  have hcut := charsBefore?_eq_some_iff.mp hoffset.start
  have hcut' : CutAt quotedLine 12 11 := charsBefore?_eq_some_iff.mp (by decide)
  obtain rfl : offset = 12 :=
    Nat.le_antisymm (hcut.offset_le hcut' (Nat.le_refl _)) (hcut'.offset_le hcut (Nat.le_refl _))
  exact ⟨hplace, hoffset⟩

end Source

end CxxScript

import CxxScript.Build.Scan
import CxxScript.Proofs.Source.Copying
import CxxScript.Proofs.Source.Including
import Mathlib.Data.List.Forall2
import Mathlib.Data.List.TakeWhile

/-!
# Private values

A line with a `private` directive can be cut behind the directive's colon. What stands behind the
cut, the private value, has no say in anything but the flags that the directive gives: the directive
stands at the same place whatever its value, `private_directive`, and the include on the line, if
there is one, leads to the same, `include_private`. Two files that differ in nothing but private
values, `SameButPrivate`, have copies that do so, too.
-/

set_option autoImplicit false

namespace CxxScript.Source

open Text

/-! ## Markers -/

/-- A marker stands at a place of a line, outside string literals. -/
def MarkedAt (line : List Char) (place : Nat) : Prop :=
  marker.isPrefixOf (line.drop place) = true ∧ unescapedQuotes (line.take place) % 2 = 0

/-- The marker that is found is the first one outside string literals. -/
theorem findMarker?_eq_some_iff {line : List Char} {place : Nat} :
    findMarker? line = some place ↔ MarkedAt line place ∧ ∀ j < place, ¬ MarkedAt line j := by
  have hmarked : ∀ j, decide (marker.isPrefixOf (line.drop j) = true ∧
      (unescapedQuotes (line.take j) % 2 == 0) = true) = true ↔ MarkedAt line j := by
    intro j
    rw [decide_eq_true_eq, beq_iff_eq]
    rfl
  have hrange : MarkedAt line place → place ∈ List.range line.length := by
    rintro ⟨hlead, -⟩
    rw [List.mem_range]
    by_contra hbeyond
    rw [List.drop_eq_nil_of_le (Nat.not_lt.mp hbeyond)] at hlead
    cases hlead
  rw [findMarker?, markerPlaces, List.find?_filter, List.find?_range_eq_some, hmarked]
  constructor
  · rintro ⟨hplace, -, hbefore⟩
    refine ⟨hplace, fun j hj hmark => ?_⟩
    have hnot := hbefore j hj
    rw [(hmarked j).mpr hmark] at hnot
    cases hnot
  · rintro ⟨hplace, hbefore⟩
    refine ⟨hplace, hrange hplace, fun j hj => ?_⟩
    rw [Bool.not_eq_true', Bool.eq_false_iff, ne_eq, hmarked]
    exact hbefore j hj

/-- There is room for a marker behind its place. -/
theorem MarkedAt.length_le {line : List Char} {place : Nat} (h : MarkedAt line place) :
    place + marker.length ≤ line.length := by
  have hlength := (List.isPrefixOf_iff_prefix.mp h.1).length_le
  rw [List.length_drop] at hlength
  have hmarker : marker.length = 4 := rfl
  omega

/-- A marker stays where it is when the line goes on. -/
theorem markedAt_append_iff {line more : List Char} {place : Nat}
    (hplace : place + marker.length ≤ line.length) :
    MarkedAt (line ++ more) place ↔ MarkedAt line place := by
  have hle : place ≤ line.length := by omega
  rw [MarkedAt, MarkedAt, List.drop_append_of_le_length hle, List.take_append_of_le_length hle,
    List.isPrefixOf_iff_prefix, List.isPrefixOf_iff_prefix]
  refine and_congr_left fun _ => ⟨fun h => ?_, fun h => h.trans (List.prefix_append _ _)⟩
  refine List.prefix_of_prefix_length_le h (List.prefix_append _ _) ?_
  rw [List.length_drop]
  omega

/-- The first marker is the first one when the line goes on. -/
theorem findMarker?_append {line : List Char} {place : Nat} (h : findMarker? line = some place)
    (more : List Char) : findMarker? (line ++ more) = some place := by
  obtain ⟨hplace, hbefore⟩ := findMarker?_eq_some_iff.mp h
  have hroom := hplace.length_le
  refine findMarker?_eq_some_iff.mpr ⟨(markedAt_append_iff hroom).mpr hplace, fun j hj => ?_⟩
  rw [markedAt_append_iff (by omega)]
  exact hbefore j hj

/-! ## The directive -/

/-- The text ends with the colon of a `private` directive. -/
def OpensPrivate (opening : List Char) : Prop :=
  ∃ place gap gap', findMarker? opening = some place ∧ gap.all isGap = true ∧
    gap'.all isGap = true ∧
    opening.drop (place + marker.length) = gap ++ ("private".toList ++ (gap' ++ [':']))

/-- Leading characters of a class are passed over. -/
theorem dropWhile_of_all {p : Char → Bool} {s : List Char} (hs : s.all p = true) {c : Char}
    (hc : p c = false) (rest : List Char) : (s ++ c :: rest).dropWhile p = c :: rest := by
  rw [List.dropWhile_append_of_pos fun a ha => List.all_eq_true.mp hs a ha,
    List.dropWhile_cons_of_neg (by simp [hc])]

/-- A `private` directive is read as one whatever its value. -/
theorem parse_private {gap gap' value : List Char} (hgap : gap.all isGap = true)
    (hgap' : gap'.all isGap = true) (hvalue : '\n' ∉ value) :
    ∃ text, Directive.parse (gap ++ ("private".toList ++ (gap' ++ ':' :: value))) =
      .keyValue "private" text := by
  have htext : (gap ++ ("private".toList ++ (gap' ++ ':' :: value))).dropWhile isGap =
      "private".toList ++ (gap' ++ ':' :: value) := dropWhile_of_all hgap (by decide) _
  -- Neither a gap nor the colon belongs to the key.
  have hend : ∀ c rest, gap' ++ ':' :: value = c :: rest → Directive.isKeyChar c = false := by
    intro c rest heq
    cases gap' with
    | nil =>
      cases heq
      decide
    | cons g gap' =>
      cases heq
      have hg : isGap c = true := List.all_eq_true.mp hgap' c List.mem_cons_self
      simp only [isGap, Bool.or_eq_true, beq_iff_eq] at hg
      rcases hg with rfl | rfl <;> decide
  obtain ⟨c, rest, hcons⟩ : ∃ c rest, gap' ++ ':' :: value = c :: rest := by
    cases gap' with
    | nil => exact ⟨_, _, rfl⟩
    | cons g gap' => exact ⟨_, _, rfl⟩
  have hkey : ("private".toList ++ (gap' ++ ':' :: value)).dropWhile Directive.isKeyChar =
      gap' ++ ':' :: value := by
    rw [hcons]
    exact dropWhile_of_all (by decide) (hend c rest hcons) rest
  have htaken : ("private".toList ++ (gap' ++ ':' :: value)).takeWhile Directive.isKeyChar =
      "private".toList := by
    rw [hcons, List.takeWhile_append_of_pos (List.all_eq_true.mp (by decide)),
      List.takeWhile_cons_of_neg (by simp [hend c rest hcons]), List.append_nil]
  have hcolon : (gap' ++ ':' :: value).dropWhile isGap = ':' :: value :=
    dropWhile_of_all hgap' (by decide) _
  have hline : (value.dropWhile isGap).contains '\n' = false := by
    rw [Bool.eq_false_iff, ne_eq, List.contains_iff_mem]
    exact fun hmem => hvalue ((List.dropWhile_sublist isGap).mem hmem)
  have hkeyValue : Directive.keyValue? ("private".toList ++ (gap' ++ ':' :: value)) =
      some ("private".toList, value.dropWhile isGap) := by
    rw [Directive.keyValue?, hkey, hcolon]
    show (if (value.dropWhile isGap).contains '\n' = true then none else _) = _
    rw [hline, htaken]
    rfl
  refine ⟨String.ofList (trimEnd (value.dropWhile isGap)), ?_⟩
  rw [Directive.parse, htext, hkeyValue]
  rfl

/-- A `private` directive stands where it stands whatever its value. -/
theorem private_directive {opening : List Char} (h : OpensPrivate opening) :
    ∃ place, ∀ index value, '\n' ∉ value → ∃ text,
      Scan.directiveOn? index (opening ++ value) =
        some (⟨index + 1, place + 1⟩, .keyValue "private" text) := by
  obtain ⟨place, gap, gap', hplace, hgap, hgap', hrest⟩ := h
  refine ⟨place, fun index value hvalue => ?_⟩
  have hle : place + marker.length ≤ opening.length :=
    (findMarker?_eq_some_iff.mp hplace).1.length_le
  have hbehind : (opening ++ value).drop (place + marker.length) =
      gap ++ ("private".toList ++ (gap' ++ ':' :: value)) := by
    rw [List.drop_append_of_le_length hle, hrest]
    simp only [List.append_assoc, List.singleton_append]
  obtain ⟨text, htext⟩ := parse_private hgap hgap' hvalue
  refine ⟨text, ?_⟩
  rw [Scan.directiveOn?, findMarker?_append hplace, Option.map_some, hbehind, htext]

/-! ## The include -/

/-- An include that leads to nothing, or none. -/
def Inert : Option Include → Prop
  | none => True
  | some (.system header) => Package.Implied.ofHeader? header = none
  | some (.beside _) => False

/-- No header that implies anything has a `#` in its name. -/
theorem ofHeader?_of_hash {header : String} (h : '#' ∈ header.toList) :
    Package.Implied.ofHeader? header = none := by
  have htable : ∀ entry ∈ Package.Implied.table, '#' ∉ entry.1.toList := by decide
  rw [Package.Implied.ofHeader?, List.lookup_eq_none_iff]
  intro entry hentry
  rw [bne_iff_ne]
  rintro rfl
  exact htable entry hentry h

namespace Include

/-- What stands behind a keyword does not depend on what follows a slash, the keyword having
none. -/
theorem after?_slash {expected : List Char} (hslash : '/' ∉ expected) (s rest : List Char) :
    after? expected (s ++ '/' :: rest) = (after? expected s).map (· ++ '/' :: rest) := by
  have hlead : expected.isPrefixOf (s ++ '/' :: rest) = expected.isPrefixOf s := by
    induction expected generalizing s with
    | nil => simp
    | cons e expected ih =>
      obtain ⟨hne, hslash⟩ := not_or.mp (mt List.mem_cons.mpr hslash)
      cases s with
      | nil =>
        rw [List.nil_append, List.isPrefixOf_cons_cons, beq_eq_false_iff_ne.mpr (Ne.symm hne)]
        rfl
      | cons c s =>
        rw [List.cons_append, List.isPrefixOf_cons_cons, List.isPrefixOf_cons_cons, ih hslash s]
  unfold after?
  rw [hlead]
  split
  · next h =>
    have hle := (List.isPrefixOf_iff_prefix.mp h).length_le
    rw [List.drop_append_of_le_length hle]
    rfl
  · rfl

/-- What stands behind the word `include` on an include line. -/
def named? (line : List Char) : Option (List Char) := do
  let rest ← after? ['#'] (line.dropWhile isGap)
  let rest ← after? "include".toList (rest.dropWhile isGap)
  return rest.dropWhile isGap

/-- The include of a line by what stands behind the word `include` before a slash. -/
theorem ofLine?_slash (s rest : List Char) :
    ofLine? (s ++ '/' :: rest) = (named? s).bind fun s => ofDelimited? (s ++ '/' :: rest) := by
  rw [ofLine?, named?, dropWhile_append_cons (by decide), after?_slash (by decide)]
  cases after? ['#'] (s.dropWhile isGap) with
  | none => rfl
  | some s =>
    show (after? "include".toList ((s ++ '/' :: rest).dropWhile isGap)).bind _ =
      ((after? "include".toList (s.dropWhile isGap)).bind _).bind _
    rw [dropWhile_append_cons (by decide), after?_slash (by decide)]
    cases after? "include".toList (s.dropWhile isGap) with
    | none => rfl
    | some s =>
      show ofDelimited? ((s ++ '/' :: rest).dropWhile isGap) = _
      rw [dropWhile_append_cons (by decide)]
      rfl

/-- What is named up to a closing delimiter does not depend on what follows it. -/
theorem until?_append {close : Char} {s : List Char} (hclose : close ∈ s) (rest : List Char) :
    until? close (s ++ rest) = until? close s := by
  obtain ⟨run, behind, rfl, hrun⟩ := List.eq_append_cons_of_mem hclose
  rw [List.append_assoc, List.cons_append, until?_of_closed hrun, until?_of_closed hrun]

/-- A name that is not closed before some text has that text in it, up to the closing delimiter. -/
theorem mem_until? {close c : Char} {s rest : List Char} {target : String} (hs : close ∉ s)
    (hc : c ≠ close) (h : until? close (s ++ c :: rest) = some target) : c ∈ target.toList := by
  obtain ⟨-, -, behind, hbehind⟩ := until?_eq_some_iff.mp h
  -- Otherwise the closing delimiter would stand in front of it.
  rcases List.append_eq_append_iff.mp hbehind with ⟨more, hmore, hrest⟩ | ⟨more, hmore, hrest⟩
  · cases more with
    | nil => exact absurd (List.cons.inj hrest).1 hc
    | cons d more =>
      obtain ⟨rfl, -⟩ := List.cons.inj hrest
      rw [hmore]
      exact List.mem_append_right _ List.mem_cons_self
  · cases more with
    | nil => exact absurd (List.cons.inj hrest).1.symm hc
    | cons d more =>
      obtain ⟨rfl, -⟩ := List.cons.inj hrest
      exact absurd (hmore ▸ List.mem_append_right _ List.mem_cons_self) hs

end Include

/-- A character that begins no escape and is no quote leaves the number of quotes as it is. -/
theorem unescapedQuotes_cons {c : Char} (hslash : c ≠ '\\') (hquote : c ≠ '"') (s : List Char) :
    unescapedQuotes (c :: s) = unescapedQuotes s := by
  rw [unescapedQuotes]
  · exact fun _ _ h => absurd h hslash
  · exact hquote

/-- Characters of that kind in front leave the number of quotes as it is. -/
theorem unescapedQuotes_append {front : List Char} (hfront : ∀ c ∈ front, c ≠ '\\' ∧ c ≠ '"')
    (s : List Char) : unescapedQuotes (front ++ s) = unescapedQuotes s := by
  induction front with
  | nil => rfl
  | cons c front ih =>
    obtain ⟨hslash, hquote⟩ := hfront c List.mem_cons_self
    rw [List.cons_append, unescapedQuotes_cons hslash hquote,
      ih fun d hd => hfront d (List.mem_cons_of_mem c hd)]

/-- A text without quotes has no quotes that no backslash takes. -/
theorem unescapedQuotes_of_not_mem {s : List Char} (hs : '"' ∉ s) : unescapedQuotes s = 0 := by
  fun_induction unescapedQuotes s with
  | case1 => rfl
  | case2 c rest ih =>
    exact ih fun hmem => hs (List.mem_cons_of_mem _ (List.mem_cons_of_mem _ hmem))
  | case3 rest ih => exact absurd List.mem_cons_self hs
  | case4 c rest hslash hquote ih => exact ih fun hmem => hs (List.mem_cons_of_mem _ hmem)

namespace Include

/-- The word `include` is in no string literal, and what stands in front of it has no quotes. -/
theorem unescapedQuotes_named? {line s : List Char} (h : named? line = some s) :
    unescapedQuotes line = unescapedQuotes s := by
  have hgap : ∀ line : List Char, unescapedQuotes line =
      unescapedQuotes (line.dropWhile isGap) := by
    intro line
    have hfront : ∀ c ∈ line.takeWhile isGap, c ≠ '\\' ∧ c ≠ '"' := by
      intro c hc
      have hc := List.mem_takeWhile_imp hc
      simp only [isGap, Bool.or_eq_true, beq_iff_eq] at hc
      rcases hc with rfl | rfl <;> decide
    conv_lhs => rw [← List.takeWhile_append_dropWhile (p := isGap) (l := line)]
    exact unescapedQuotes_append hfront _
  have hafter : ∀ {expected line rest : List Char}, '\\' ∉ expected → '"' ∉ expected →
      after? expected line = some rest → unescapedQuotes line = unescapedQuotes rest := by
    intro expected line rest hslash hquote hrest
    unfold after? at hrest
    split at hrest
    · next hlead =>
      obtain ⟨behind, rfl⟩ := List.isPrefixOf_iff_prefix.mp hlead
      cases hrest
      have hfront : ∀ c ∈ expected, c ≠ '\\' ∧ c ≠ '"' := fun c hc =>
        ⟨ne_of_mem_of_not_mem hc hslash, ne_of_mem_of_not_mem hc hquote⟩
      rw [List.drop_left, unescapedQuotes_append hfront]
    · cases hrest
  simp only [named?, Option.bind_eq_bind, Option.bind_eq_some_iff] at h
  obtain ⟨s₁, h₁, s₂, h₂, h₃⟩ := h
  cases h₃
  rw [hgap line, hafter (by decide) (by decide) h₁, hgap s₁, hafter (by decide) (by decide) h₂,
    hgap s₂]

/-- A header name that is still open at a marker has the marker in it, and no header is called
so. -/
theorem inert_of_open {s : List Char} (hopen : '>' ∉ s) (rest : List Char) :
    Inert ((until? '>' (s ++ '/' :: '/' :: '#' :: '!' :: rest)).map .system) := by
  cases htarget : until? '>' (s ++ '/' :: '/' :: '#' :: '!' :: rest) with
  | none => trivial
  | some target =>
    have hslashes : '>' ∉ s ++ ['/', '/'] := by simp [hopen]
    have hsplit : s ++ '/' :: '/' :: '#' :: '!' :: rest =
        (s ++ ['/', '/']) ++ '#' :: '!' :: rest := by simp
    rw [hsplit] at htarget
    exact ofHeader?_of_hash (mem_until? hslashes (by decide) htarget)

end Include

/-- The include on a line with a `private` directive is the same whatever the directive's value, or
leads to nothing whatever that is. -/
theorem include_private {opening : List Char} (h : OpensPrivate opening) :
    (∃ i?, ∀ value, Include.ofLine? (opening ++ value) = i?) ∨
      ∀ value, Inert (Include.ofLine? (opening ++ value)) := by
  obtain ⟨place, -, -, hplace, -⟩ := h
  obtain ⟨⟨hmarker, hquotes⟩, -⟩ := findMarker?_eq_some_iff.mp hplace
  obtain ⟨behind, hbehind⟩ := List.isPrefixOf_iff_prefix.mp hmarker
  have hline : ∀ value, opening ++ value =
      opening.take place ++ '/' :: '/' :: '#' :: '!' :: (behind ++ value) := by
    intro value
    conv_lhs => rw [← List.take_append_drop place opening, ← hbehind]
    simp [marker]
  simp only [hline, Include.ofLine?_slash]
  cases hnamed : Include.named? (opening.take place) with
  | none => exact .inl ⟨none, fun _ => rfl⟩
  | some s =>
    rw [Include.unescapedQuotes_named? hnamed] at hquotes
    simp only [Option.bind_some]
    cases s with
    | nil => exact .inl ⟨none, fun _ => rfl⟩
    | cons c s =>
      by_cases hquote : c = '"'
      · -- A literal that is still open would take the marker in.
        subst hquote
        have hclosed : '"' ∈ s := by
          by_contra hopen
          have hone : unescapedQuotes ('"' :: s) = 1 := by
            rw [unescapedQuotes, unescapedQuotes_of_not_mem hopen]
          rw [hone] at hquotes
          cases hquotes
        refine .inl ⟨(Include.until? '"' s).map .beside, fun value => ?_⟩
        show (Include.until? '"' (s ++ _)).map Include.beside = _
        rw [Include.until?_append hclosed]
      by_cases hangle : c = '<'
      · subst hangle
        by_cases hclosed : '>' ∈ s
        · refine .inl ⟨(Include.until? '>' s).map .system, fun value => ?_⟩
          show (Include.until? '>' (s ++ _)).map Include.system = _
          rw [Include.until?_append hclosed]
        · exact .inr fun value => Include.inert_of_open hclosed (behind ++ value)
      · refine .inl ⟨none, fun value => ?_⟩
        rw [List.cons_append, Include.ofDelimited?]
        · exact fun _ h => hquote (List.cons.inj h).1
        · exact fun _ h => hangle (List.cons.inj h).1

/-! ## Lines and files -/

/-- Two lines, as they are searched for directives, differ in nothing but the value of a `private`
directive. -/
def PrivateChange (line line' : List Char) : Prop :=
  ∃ opening value value', OpensPrivate opening ∧ '\n' ∉ opening ∧ '\n' ∉ value ∧ '\n' ∉ value' ∧
    line = opening ++ value ∧ line' = opening ++ value'

/-- Two lines of files are the same, or they differ in nothing but the value of a `private`
directive. -/
def LineSameButPrivate (line line' : Bytes) : Prop :=
  line' = line ∨ (isInterpreterLine line' = isInterpreterLine line ∧
    PrivateChange (readableLine line) (readableLine line'))

/-- Two contents differ, line by line, in nothing but the values of `private` directives. -/
def SameButPrivate (content content' : Bytes) : Prop :=
  List.Forall₂ LineSameButPrivate (rawLines content) (rawLines content')

/-- The lines of two texts one behind the other, the first of which ends a line. -/
theorem rawLines_append (first rest : Bytes) :
    rawLines ((first ++ [0x0A]) ++ rest) = rawLines (first ++ [0x0A]) ++ rawLines rest := by
  induction first with
  | nil => rfl
  | cons b first ih =>
    have hcons : rawLines (first ++ [0x0A]) ≠ [] := by
      intro hnil
      have hempty := eq_nil_of_rawLines hnil
      simp at hempty
    obtain ⟨line, more, hlines⟩ := List.exists_cons_of_ne_nil hcons
    rw [List.cons_append, List.cons_append, rawLines_cons, rawLines_cons, ih, hlines]
    split <;> rfl

/-- The lines of a copy, whatever the file is called. -/
theorem rawLines_copyOf_append (p : Path) (content : Bytes) : rawLines (copyOf p content) =
    rawLines (Utf8.encode (lineMarker p)) ++ (rawLines content).map defuse := by
  have hends : ∀ a b : Bytes, a ++ (b ++ [0x22, 0x0A]) = (a ++ (b ++ [0x22])) ++ [0x0A] := by
    intro a b
    simp
  rw [copyOf_eq, encode_lineMarker, hends, rawLines_append, rawLines_slashed]

/-- The copies of contents that differ in private values alone differ in these alone. -/
theorem SameButPrivate.copyOf {content content' : Bytes} (h : SameButPrivate content content')
    (p : Path) : SameButPrivate (copyOf p content) (copyOf p content') := by
  have hline : ∀ line line', LineSameButPrivate line line' →
      LineSameButPrivate (defuse line) (defuse line') := by
    rintro line line' (rfl | ⟨-, hchange⟩)
    · exact .inl rfl
    · refine .inr ⟨?_, ?_⟩
      · rw [isInterpreterLine_defuse, isInterpreterLine_defuse]
      · rw [readableLine_defuse, readableLine_defuse]
        exact hchange
  rw [SameButPrivate, rawLines_copyOf_append, rawLines_copyOf_append]
  refine List.rel_append (List.forall₂_same.mpr fun line _ => .inl rfl) ?_
  exact List.forall₂_map_left_iff.mpr (List.forall₂_map_right_iff.mpr (h.imp hline))

end CxxScript.Source

import CxxScript.Source.Copy

/-!
# What stands in a copy

A copy is its file with two slashes before each `#!` that begins a line, `slashed`, behind one line
that names the file. The lines of a file and those behind the first of its copy correspond,
`rawLines_copyOf`, and are searched for directives as the same text, `readableLine_defuse`; so what
stands behind the first line needs no copy of its own. A compiler that reads the name between the
quotes finds the bytes of the path, `readQuoted_escaped`.
-/

set_option autoImplicit false

namespace CxxScript

namespace Text

variable {α : Type} {p : α → Bool}

/-- A line with its end is the first piece of a list. -/
theorem splitAfter_line {line : List α} {e : α} (hline : ∀ a ∈ line, p a = false)
    (he : p e = true) (rest : List α) :
    splitAfter p (line ++ e :: rest) = (line ++ [e]) :: splitAfter p rest := by
  induction line with
  | nil => rw [List.nil_append, splitAfter, he, if_pos rfl, List.nil_append]
  | cons a line ih =>
    have ha : p a = false := hline a List.mem_cons_self
    rw [List.cons_append, splitAfter, ha, ih fun b hb => hline b (List.mem_cons_of_mem a hb)]
    rfl

namespace Utf8

/-- One text after the other. -/
theorem encode_append (a b : String) : encode (a ++ b) = encode a ++ encode b := by
  rw [encode, String.toList_append, List.flatMap_append, ← encode, ← encode]

/-- A byte of ASCII stands in the encoding of its own character alone. -/
theorem toNat_of_mem_encodeChar {c : Char} {b : UInt8} (hb : b.toNat < 0x80)
    (h : b ∈ String.utf8EncodeChar c) : c.toNat = b.toNat := by
  have hc : c.toNat = c.val.toNat := rfl
  unfold String.utf8EncodeChar at h
  dsimp only at h
  split at h
  · rw [List.mem_singleton] at h
    rw [h, hc, UInt8.toNat_ofNat']
    omega
  · split at h
    · simp only [List.mem_cons, List.not_mem_nil, or_false] at h
      rcases h with rfl | rfl <;> rw [UInt8.toNat_ofNat'] at hb <;> omega
    · split at h
      · simp only [List.mem_cons, List.not_mem_nil, or_false] at h
        rcases h with rfl | rfl | rfl <;> rw [UInt8.toNat_ofNat'] at hb <;> omega
      · simp only [List.mem_cons, List.not_mem_nil, or_false] at h
        rcases h with rfl | rfl | rfl | rfl <;> rw [UInt8.toNat_ofNat'] at hb <;> omega

/-- A byte of ASCII stands in the encoding of a text only where the text has its character. -/
theorem mem_of_mem_encode {s : List Char} {c : Char} {b : UInt8} (hb : b.toNat < 0x80)
    (hc : c.toNat = b.toNat) (h : b ∈ s.flatMap String.utf8EncodeChar) : c ∈ s := by
  obtain ⟨d, hd, hbd⟩ := List.mem_flatMap.mp h
  have hdc : d = c := Char.toNat_inj.mp ((toNat_of_mem_encodeChar hb hbd).trans hc.symm)
  exact hdc ▸ hd

end Utf8

end Text

namespace Source

/-! ## Where two slashes go -/

/-- Whether only gaps stand between the last line feed of some bytes and their end. -/
def endsInGaps (before : Bytes) : Bool :=
  (before.reverse.takeWhile (· != 0x0A)).all isGapByte

/-- Whether the bytes of a file go on, behind those before, with a `#!` that begins a line. -/
def begins (before after : Bytes) : Bool :=
  endsInGaps before && [0x23, 0x21].isPrefixOf after

/-- Bytes of a file that stand behind others, with two slashes before each `#!` that begins a
line. -/
def slashed (before : Bytes) : Bytes → Bytes
  | [] => []
  | b :: rest =>
    if begins before (b :: rest) then 0x2F :: 0x2F :: b :: slashed (before ++ [b]) rest
    else b :: slashed (before ++ [b]) rest

/-- Whether a `#!` in some bytes begins a line. -/
def HasInterpreterLine (content : Bytes) : Prop :=
  ∃ before after, content = before ++ after ∧ begins before after = true

/-- One byte more. -/
theorem endsInGaps_append (before : Bytes) (b : UInt8) :
    endsInGaps (before ++ [b]) = (b == 0x0A || isGapByte b && endsInGaps before) := by
  rw [endsInGaps, endsInGaps, List.reverse_append, List.reverse_singleton, List.singleton_append,
    List.takeWhile_cons]
  by_cases hb : b = 0x0A
  · subst hb
    rfl
  · have hne : (b != 0x0A) = true := bne_iff_ne.mpr hb
    have heq : (b == 0x0A) = false := beq_eq_false_iff_ne.mpr hb
    rw [hne, if_pos rfl, List.all_cons, heq, Bool.false_or]

/-- A gap before a line goes before the line as a compiler can read it. -/
theorem defuse_gap {b : UInt8} (hb : isGapByte b = true) (line : Bytes) :
    isInterpreterLine (b :: line) = isInterpreterLine line ∧
      defuse (b :: line) = b :: defuse line := by
  have hi : isInterpreterLine (b :: line) = isInterpreterLine line := by
    rw [isInterpreterLine, isInterpreterLine, List.dropWhile_cons_of_pos hb]
  refine ⟨hi, ?_⟩
  rw [defuse, defuse, hi, List.takeWhile_cons_of_pos hb, List.dropWhile_cons_of_pos hb]
  split <;> rfl

/-- A line that does not begin with a gap is changed when it begins with `#!`. -/
theorem isInterpreterLine_cons {b : UInt8} (hb : isGapByte b = false) (line : Bytes) :
    isInterpreterLine (b :: line) = [0x23, 0x21].isPrefixOf (b :: line) := by
  have hneg : ¬ isGapByte b = true := by rw [hb]; exact Bool.false_ne_true
  rw [isInterpreterLine, List.dropWhile_cons_of_neg hneg]
  split
  · next hline =>
    rw [hline]
    rfl
  · next hnot =>
    symm
    rw [Bool.eq_false_iff]
    intro hprefix
    obtain ⟨rest, hrest⟩ := List.isPrefixOf_iff_prefix.mp hprefix
    exact hnot rest hrest.symm

/-- A line that begins with `#!` gets two slashes before it. -/
theorem defuse_of_hashBang {line : Bytes} (h : [0x23, 0x21].isPrefixOf line = true) :
    defuse line = 0x2F :: 0x2F :: line := by
  obtain ⟨rest, rfl⟩ := List.isPrefixOf_iff_prefix.mp h
  rfl

/-- A line that begins neither with a gap nor with `#!` stays as it is. -/
theorem defuse_of_other {b : UInt8} (hb : isGapByte b = false) {line : Bytes}
    (h : [0x23, 0x21].isPrefixOf (b :: line) = false) : defuse (b :: line) = b :: line := by
  rw [defuse_eq_self_iff, isInterpreterLine_cons hb, h]

/-- A byte before lines: it joins the first of them. -/
def joinFirst (b : UInt8) : List Bytes → List Bytes
  | [] => [[b]]
  | first :: more => (b :: first) :: more

/-- A line feed is a line of its own, any other byte joins the line behind it. -/
theorem rawLines_cons (b : UInt8) (rest : Bytes) :
    rawLines (b :: rest) =
      if b = 0x0A then [b] :: rawLines rest else joinFirst b (rawLines rest) := by
  rw [rawLines, Text.splitAfter, ← rawLines]
  by_cases hb : b = 0x0A
  · subst hb
    rfl
  · rw [if_neg hb, if_neg (by rw [beq_iff_eq]; exact hb)]
    cases rawLines rest <;> rfl

/-- Whether bytes begin with `#!` is seen in their first line. -/
theorem prefix_line {rest first : Bytes} {more : List Bytes}
    (hlines : rawLines rest = first :: more) (b : UInt8) :
    [0x23, 0x21].isPrefixOf (b :: rest) = [0x23, 0x21].isPrefixOf (b :: first) := by
  have hne : first ≠ [] := Text.ne_nil_of_mem_splitAfter (· == 0x0A) rest first (by
    rw [← rawLines, hlines]
    exact List.mem_cons_self)
  obtain ⟨c, tail, rfl⟩ := List.exists_cons_of_ne_nil hne
  have hflat : rest = (c :: tail) ++ more.flatten := by
    rw [← Text.flatten_splitAfter (· == 0x0A) rest, ← rawLines, hlines, List.flatten_cons]
  rw [hflat]
  rfl

/-- Bytes without lines are none. -/
theorem eq_nil_of_rawLines {rest : Bytes} (hlines : rawLines rest = []) : rest = [] := by
  rw [← Text.flatten_splitAfter (· == 0x0A) rest, ← rawLines, hlines, List.flatten_nil]

/-- The first of some lines as a compiler can read it, where gaps alone stand before it, and as it
is otherwise; the others as a compiler can read them. -/
def defuseFrom (gaps : Bool) : List Bytes → List Bytes
  | [] => []
  | first :: more => (if gaps then defuse first else first) :: more.map defuse

/-- Where gaps alone stand before lines, all are as a compiler can read them. -/
theorem defuseFrom_true (lines : List Bytes) : defuseFrom true lines = lines.map defuse := by
  cases lines <;> rfl

/-- The lines of bytes with slashes are the lines of the bytes as a compiler can read them. -/
theorem rawLines_slashed_from (before content : Bytes) :
    rawLines (slashed before content) = defuseFrom (endsInGaps before) (rawLines content) := by
  induction content generalizing before with
  | nil => rfl
  | cons b rest ih =>
    have hih := ih (before ++ [b])
    rw [endsInGaps_append] at hih
    rw [slashed, rawLines_cons b rest]
    by_cases hfeed : b = 0x0A
    · subst hfeed
      have hnot : begins before (0x0A :: rest) = false := by rw [begins]; exact Bool.and_false _
      have hgap : defuse [0x0A] = [0x0A] := rfl
      rw [hnot, if_neg Bool.false_ne_true, rawLines_cons, if_pos rfl, if_pos rfl, hih,
        beq_self_eq_true, Bool.true_or, defuseFrom_true, defuseFrom, hgap, ite_self]
    rw [if_neg hfeed]
    have hne : (b == 0x0A) = false := beq_eq_false_iff_ne.mpr hfeed
    rw [hne, Bool.false_or] at hih
    cases hgap : isGapByte b with
    | true =>
      -- A gap changes nothing about what is begun.
      have hnot : begins before (b :: rest) = false := by
        have hb : b ≠ 0x23 := by
          rintro rfl
          cases hgap
        rw [begins, List.isPrefixOf, beq_eq_false_iff_ne.mpr hb.symm, Bool.false_and,
          Bool.and_false]
      rw [hgap, Bool.true_and] at hih
      rw [hnot, if_neg Bool.false_ne_true, rawLines_cons, if_neg hfeed, hih]
      cases rawLines rest with
      | nil =>
        have hself : defuse [b] = [b] := (defuse_gap hgap []).2
        show [[b]] = [if endsInGaps before then defuse [b] else [b]]
        rw [hself, ite_self]
      | cons first more =>
        rw [joinFirst, defuseFrom, defuseFrom, (defuse_gap hgap first).2]
        cases endsInGaps before <;> rfl
    | false =>
      rw [hgap, Bool.false_and] at hih
      cases hlines : rawLines rest with
      | nil =>
        obtain rfl := eq_nil_of_rawLines hlines
        have hnot : [0x23, 0x21].isPrefixOf [b] = false := Bool.and_false _
        rw [begins, hnot, Bool.and_false, if_neg Bool.false_ne_true, slashed, rawLines_cons,
          if_neg hfeed, hlines, joinFirst, defuseFrom, defuse_of_other hgap hnot, ite_self]
        rfl
      | cons first more =>
        have hrest : rawLines (slashed (before ++ [b]) rest) = first :: more.map defuse := by
          rw [hih, hlines]
          rfl
        have hslash : ∀ tail, rawLines (0x2F :: tail) = joinFirst 0x2F (rawLines tail) := by
          intro tail
          rw [rawLines_cons, if_neg (by decide)]
        rw [begins, prefix_line hlines]
        cases hprefix : [0x23, 0x21].isPrefixOf (b :: first) with
        | false =>
          rw [Bool.and_false, if_neg Bool.false_ne_true, rawLines_cons, if_neg hfeed, hrest,
            joinFirst, joinFirst, defuseFrom, defuse_of_other hgap hprefix, ite_self]
        | true =>
          rw [Bool.and_true]
          cases endsInGaps before with
          | false =>
            rw [if_neg Bool.false_ne_true, rawLines_cons, if_neg hfeed, hrest]
            rfl
          | true =>
            rw [if_pos rfl, hslash, hslash, rawLines_cons, if_neg hfeed, hrest, joinFirst,
              joinFirst, joinFirst, joinFirst, defuseFrom, if_pos rfl, defuse_of_hashBang hprefix]

/-- The lines of a file with its slashes are the lines of the file as a compiler can read them. -/
theorem rawLines_slashed (content : Bytes) :
    rawLines (slashed [] content) = (rawLines content).map defuse := by
  rw [rawLines_slashed_from]
  exact defuseFrom_true _

/-- What a copy holds behind its first line are the bytes of the file with the slashes. -/
theorem flatMap_defuse (content : Bytes) :
    (rawLines content).flatMap defuse = slashed [] content := by
  rw [List.flatMap, ← rawLines_slashed, rawLines, Text.flatten_splitAfter]

/-- A copy is the line with the path of the file, and the content with two slashes before each `#!`
that begins a line. -/
theorem copyOf_eq (p : Path) (content : Bytes) :
    copyOf p content = Text.Utf8.encode (lineMarker p) ++ slashed [] content := by
  rw [copyOf, flatMap_defuse]

/-- Bytes stay as they are when no `#!` among them begins a line. -/
theorem slashed_eq_self_iff (before content : Bytes) : slashed before content = content ↔
    ∀ pre post, content = pre ++ post → begins (before ++ pre) post = false := by
  induction content generalizing before with
  | nil =>
    refine ⟨fun _ pre post hsplit => ?_, fun _ => rfl⟩
    obtain ⟨-, rfl⟩ := List.append_eq_nil_iff.mp hsplit.symm
    exact Bool.and_false _
  | cons b rest ih =>
    rw [slashed]
    cases hbegins : begins before (b :: rest) with
    | true =>
      rw [if_pos rfl]
      constructor
      · intro heq
        have hb : b = 0x2F := (List.cons.inj heq).1.symm
        rw [begins, hb, Bool.and_eq_true] at hbegins
        cases hbegins.2
      · intro hnone
        have hhere := hnone [] (b :: rest) rfl
        rw [List.append_nil, hbegins] at hhere
        cases hhere
    | false =>
      rw [if_neg Bool.false_ne_true, List.cons.injEq, eq_self_iff_true, true_and, ih]
      constructor
      · intro hnone pre post hsplit
        cases pre with
        | nil =>
          rw [List.append_nil, show post = b :: rest from hsplit.symm]
          exact hbegins
        | cons c pre =>
          obtain ⟨rfl, hrest⟩ := List.cons.inj hsplit
          have hthere := hnone pre post hrest
          rwa [List.append_assoc] at hthere
      · intro hnone pre post hsplit
        rw [List.append_assoc]
        exact hnone (b :: pre) post (by rw [hsplit]; rfl)

/-- A file needs a copy just when a `#!` in it begins a line. -/
theorem needsCopy_iff (content : Bytes) :
    needsCopy content = true ↔ HasInterpreterLine content := by
  have hself : slashed [] content = content ↔ needsCopy content = false := by
    rw [← flatMap_defuse, needsCopy, List.any_eq_false]
    constructor
    · intro heq line hline hi
      have hlines : (rawLines content).map defuse = (rawLines content).map id := by
        rw [← rawLines_slashed, ← flatMap_defuse, heq, List.map_id]
      have hsame : defuse line = line := List.map_inj_left.mp hlines line hline
      rw [(defuse_eq_self_iff line).mp hsame] at hi
      cases hi
    · intro hnone
      have hlines : (rawLines content).map defuse = (rawLines content).map id :=
        List.map_inj_left.mpr fun line hline =>
          (defuse_eq_self_iff line).mpr (Bool.eq_false_iff.mpr (hnone line hline))
      rw [List.flatMap, hlines, List.map_id, rawLines, Text.flatten_splitAfter]
  rw [slashed_eq_self_iff] at hself
  constructor
  · refine fun hneeds => Classical.byContradiction fun hnone => ?_
    refine Bool.false_ne_true ((hself.mp fun pre post hsplit => ?_).symm.trans hneeds)
    exact Bool.eq_false_iff.mpr fun hbegins => hnone ⟨pre, post, hsplit, hbegins⟩
  · rintro ⟨before, after, hsplit, hbegins⟩
    rw [← Bool.not_eq_false]
    intro hneeds
    have hnot : begins before after = false := hself.mpr hneeds before after hsplit
    rw [hnot] at hbegins
    cases hbegins

/-! ## The line that names the file -/

/-- Read the bytes of a text behind its opening quote as a compiler does, up to the closing one;
what stands behind that is left. A backslash takes a backslash or a quote, `taken` tells that one
has just been read, and the text stands on one line. -/
def readQuotedFrom (taken : Bool) : Bytes → Option (Bytes × Bytes)
  | [] => none
  | b :: rest =>
    if taken then
      if b = 0x5C ∨ b = 0x22 then (readQuotedFrom false rest).map fun r => (b :: r.1, r.2)
      else none
    else if b = 0x22 then some ([], rest)
    else if b = 0x0A then none
    else if b = 0x5C then readQuotedFrom true rest
    else (readQuotedFrom false rest).map fun r => (b :: r.1, r.2)

/-- Read the bytes of a text behind its opening quote. -/
def readQuoted (bytes : Bytes) : Option (Bytes × Bytes) := readQuotedFrom false bytes

/-- A character that a backslash takes is read as it is. -/
theorem readQuoted_taken {b : UInt8} (hb : b = 0x5C ∨ b = 0x22) (rest : Bytes) :
    readQuoted (0x5C :: b :: rest) = (readQuoted rest).map fun r => (b :: r.1, r.2) := by
  have hslash : readQuotedFrom false (0x5C :: b :: rest) = readQuotedFrom true (b :: rest) := rfl
  rw [readQuoted, hslash, readQuotedFrom, if_pos rfl, if_pos hb]
  rfl

/-- Bytes without a quote, a backslash and a line feed are read as they are. -/
theorem readQuoted_append {bytes : Bytes} (h : ∀ b ∈ bytes, b ≠ 0x22 ∧ b ≠ 0x0A ∧ b ≠ 0x5C)
    (rest : Bytes) :
    readQuoted (bytes ++ rest) = (readQuoted rest).map fun r => (bytes ++ r.1, r.2) := by
  induction bytes with
  | nil => cases hr : readQuoted rest <;> simp [hr]
  | cons b bytes ih =>
    obtain ⟨hquote, hfeed, hslash⟩ := h b List.mem_cons_self
    rw [List.cons_append, readQuoted, readQuotedFrom, if_neg Bool.false_ne_true, if_neg hquote,
      if_neg hfeed, if_neg hslash, ← readQuoted,
      ih fun c hc => h c (List.mem_cons_of_mem b hc), Option.map_map]
    rfl

/-- A name that was escaped is read as it was. -/
theorem readQuoted_escaped {name : List Char} (hname : '\n' ∉ name) (rest : Bytes) :
    readQuoted ((name.flatMap escapeChar).flatMap String.utf8EncodeChar ++ 0x22 :: rest) =
      some (name.flatMap String.utf8EncodeChar, rest) := by
  induction name with
  | nil => rfl
  | cons c name ih =>
    have hrest := ih fun hmem => hname (List.mem_cons_of_mem c hmem)
    rw [List.flatMap_cons, List.flatMap_append, List.append_assoc, List.flatMap_cons]
    by_cases hslash : c = '\\'
    · subst hslash
      have htaken : (escapeChar '\\').flatMap String.utf8EncodeChar = [0x5C, 0x5C] := by decide
      rw [htaken, List.cons_append, List.singleton_append, readQuoted_taken (.inl rfl), hrest]
      rfl
    by_cases hquote : c = '"'
    · subst hquote
      have htaken : (escapeChar '"').flatMap String.utf8EncodeChar = [0x5C, 0x22] := by decide
      rw [htaken, List.cons_append, List.singleton_append, readQuoted_taken (.inr rfl), hrest]
      rfl
    have hplain : escapeChar c = [c] := by
      rw [escapeChar, beq_eq_false_iff_ne.mpr hslash, beq_eq_false_iff_ne.mpr hquote]
      rfl
    have hbytes : ∀ b ∈ String.utf8EncodeChar c, b ≠ 0x22 ∧ b ≠ 0x0A ∧ b ≠ 0x5C := by
      have hother : ∀ (d : Char) (b : UInt8), b.toNat < 0x80 → d.toNat = b.toNat → c ≠ d →
          b ∉ String.utf8EncodeChar c := fun d b hb hd hne hmem =>
        hne (Char.toNat_inj.mp ((Text.Utf8.toNat_of_mem_encodeChar hb hmem).trans hd.symm))
      have hfeed : c ≠ '\n' := fun heq => hname (heq ▸ List.mem_cons_self)
      intro b hb
      refine ⟨?_, ?_, ?_⟩ <;> rintro rfl
      · exact hother '"' 0x22 (by decide) (by decide) hquote hb
      · exact hother '\n' 0x0A (by decide) (by decide) hfeed hb
      · exact hother '\\' 0x5C (by decide) (by decide) hslash hb
    rw [hplain, List.flatMap_singleton, readQuoted_append hbytes, hrest]
    rfl

/-- The bytes of the line that names a file. -/
theorem encode_lineMarker (p : Path) : Text.Utf8.encode (lineMarker p) =
    Text.Utf8.encode "#line 1 \"" ++
      ((p.text.toList.flatMap escapeChar).flatMap String.utf8EncodeChar ++ [0x22, 0x0A]) := by
  rw [lineMarker, Text.Utf8.encode_append, Text.Utf8.encode_append, List.append_assoc]
  congr 2
  rw [Text.Utf8.encode, String.toList_ofList]

/-- What stands behind the opening quote of the line that names a file is the path, escaped, and the
end of the line. -/
theorem readQuoted_lineMarker {p : Path} (hline : '\n' ∉ p.text.toList) :
    ∃ quoted, Text.Utf8.encode (lineMarker p) = Text.Utf8.encode "#line 1 \"" ++ quoted ∧
      readQuoted quoted = some (Text.Utf8.encode p.text, [0x0A]) :=
  ⟨_, encode_lineMarker p, readQuoted_escaped hline [0x0A]⟩

/-! ## The lines of a copy -/

/-- Escaping makes no line feed. -/
theorem feed_not_mem_escaped {name : List Char} (hname : '\n' ∉ name) :
    '\n' ∉ name.flatMap escapeChar := by
  intro hmem
  obtain ⟨c, hc, hfeed⟩ := List.mem_flatMap.mp hmem
  unfold escapeChar at hfeed
  split at hfeed
  · simp only [List.mem_cons, List.not_mem_nil, or_false] at hfeed
    rcases hfeed with hslash | rfl
    · cases hslash
    · exact hname hc
  · rw [List.mem_singleton] at hfeed
    exact hname (hfeed ▸ hc)

/-- The lines of a copy are the line that names the file and the lines of the file as a compiler can
read them. -/
theorem rawLines_copyOf {p : Path} (hline : '\n' ∉ p.text.toList) (content : Bytes) :
    rawLines (copyOf p content) =
      Text.Utf8.encode (lineMarker p) :: (rawLines content).map defuse := by
  have hfeed : ∀ b ∈ Text.Utf8.encode "#line 1 \"" ++
      ((p.text.toList.flatMap escapeChar).flatMap String.utf8EncodeChar ++ [0x22]),
      (b == 0x0A) = false := by
    intro b hb
    rw [beq_eq_false_iff_ne]
    rintro rfl
    rcases List.mem_append.mp hb with hb | hb
    · revert hb
      decide
    · rcases List.mem_append.mp hb with hb | hb
      · exact feed_not_mem_escaped hline
          (Text.Utf8.mem_of_mem_encode (c := '\n') (by decide) (by decide) hb)
      · revert hb
        decide
  rw [copyOf_eq, encode_lineMarker, ← rawLines_slashed]
  have hends : ∀ a b : Bytes, a ++ (b ++ [0x22, 0x0A]) = (a ++ (b ++ [0x22])) ++ [0x0A] := by
    intro a b
    simp
  rw [hends, List.append_assoc, List.singleton_append, rawLines, Text.splitAfter_line hfeed rfl]
  rfl

/-- The line of a file with an index is, as a compiler can read it, the next line of its copy. -/
theorem getElem?_rawLines_copyOf {p : Path} (hline : '\n' ∉ p.text.toList) (content : Bytes)
    (k : Nat) : (rawLines (copyOf p content))[k + 1]? = ((rawLines content)[k]?).map defuse := by
  rw [rawLines_copyOf hline, List.getElem?_cons_succ, List.getElem?_map]

/-- What a compiler can read is no interpreter line. -/
theorem isInterpreterLine_defuse (line : Bytes) : isInterpreterLine (defuse line) = false := by
  induction line with
  | nil => rfl
  | cons b line ih =>
    cases hgap : isGapByte b with
    | true =>
      rw [(defuse_gap hgap line).2, (defuse_gap hgap _).1, ih]
    | false =>
      cases hprefix : [0x23, 0x21].isPrefixOf (b :: line) with
      | true =>
        rw [defuse_of_hashBang hprefix]
        rfl
      | false => rw [defuse_of_other hgap hprefix, isInterpreterLine_cons hgap, hprefix]

/-- What stands in a copy behind its first line needs no copy. -/
theorem needsCopy_slashed (content : Bytes) : needsCopy (slashed [] content) = false := by
  rw [needsCopy, rawLines_slashed, List.any_map, List.any_eq_false]
  intro line _
  rw [Function.comp_apply, isInterpreterLine_defuse]
  exact Bool.false_ne_true

/-- A line that a compiler can read is searched for directives as the line of the file is. -/
theorem readableLine_defuse (line : Bytes) : readableLine (defuse line) = readableLine line := by
  have htwice : defuse (defuse line) = defuse line :=
    (defuse_eq_self_iff _).mpr (isInterpreterLine_defuse line)
  rw [readableLine, readableLine, htwice]

end Source

end CxxScript

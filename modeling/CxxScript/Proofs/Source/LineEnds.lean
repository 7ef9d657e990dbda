import CxxScript.Proofs.Source.Including
import CxxScript.Proofs.Source.Literals
import CxxScript.Proofs.Source.Marking
import CxxScript.Proofs.Text.Splitting

/-!
# Line ends

In `crlf content` a carriage return stands before each line feed. The lines are those of `content`,
each with its line end changed, `rawLines_crlf`, and a copy is needed of both or of neither. A line
is searched for directives with the carriage return at its end, `readableLine_crlf`, which tells no
reader of lines anything: the marker is found where it was, keys, values and unknown texts are
trimmed, and an include names what it named. Flags alone are not trimmed; there the carriage return
is one more blank unless a quote is open or a backslash takes it, `split_return`.
-/

set_option autoImplicit false

namespace CxxScript.Source

open Text Text.Utf8

/-- Some bytes with a carriage return before each line feed. -/
def crlf (content : Bytes) : Bytes :=
  content.flatMap fun b => if b = 0x0A then [0x0D, 0x0A] else [b]

/-- Nothing stays nothing. -/
@[simp] theorem crlf_nil : crlf [] = [] := rfl

/-- The line feeds of two stretches are replaced in each of them. -/
theorem crlf_append (a b : Bytes) : crlf (a ++ b) = crlf a ++ crlf b := List.flatMap_append

/-- A line feed gets a carriage return before it. -/
theorem crlf_feed (content : Bytes) : crlf (0x0A :: content) = 0x0D :: 0x0A :: crlf content := rfl

/-- Any other byte stays as it is. -/
theorem crlf_other {b : UInt8} (hb : b ≠ 0x0A) (content : Bytes) :
    crlf (b :: content) = b :: crlf content := by
  rw [crlf, List.flatMap_cons, if_neg hb]
  rfl

/-- A line without its line feed stays as it is. -/
theorem crlf_of_not_mem {line : Bytes} (hline : 0x0A ∉ line) : crlf line = line := by
  induction line with
  | nil => rfl
  | cons b line ih =>
    obtain ⟨hb, hrest⟩ := not_or.mp (mt List.mem_cons.mpr hline)
    rw [crlf_other (Ne.symm hb), ih hrest]

/-! ## Lines and copies -/

/-- Each line has its own line end changed. -/
theorem rawLines_crlf (content : Bytes) :
    rawLines (crlf content) = (rawLines content).map crlf := by
  induction content with
  | nil => rfl
  | cons b content ih =>
    by_cases hb : b = 0x0A
    · subst hb
      rw [crlf_feed, rawLines_cons, if_neg (by decide), rawLines_cons, if_pos rfl, rawLines_cons,
        if_pos rfl, ih]
      rfl
    · rw [crlf_other hb, rawLines_cons, if_neg hb, rawLines_cons, if_neg hb, ih]
      cases rawLines content with
      | nil => rw [List.map_nil, joinFirst, List.map_singleton, crlf_other hb, crlf_nil]
      | cons first more =>
        rw [List.map_cons, joinFirst, joinFirst, List.map_cons, crlf_other hb]

/-- Whether a line begins with `#!` is as it was. -/
theorem hashBang_crlf (line : Bytes) :
    [0x23, 0x21].isPrefixOf (crlf line) = [0x23, 0x21].isPrefixOf line := by
  cases line with
  | nil => rfl
  | cons b rest =>
    by_cases hb : b = 0x0A
    · subst hb
      rfl
    rw [crlf_other hb, List.isPrefixOf_cons_cons, List.isPrefixOf_cons_cons]
    cases rest with
    | nil => rfl
    | cons c rest =>
      by_cases hc : c = 0x0A
      · subst hc
        rfl
      · rw [crlf_other hc]
        rfl

/-- The same lines begin with `#!`, and they get their slashes at the same place. -/
theorem defuse_crlf (line : Bytes) :
    isInterpreterLine (crlf line) = isInterpreterLine line ∧
      defuse (crlf line) = crlf (defuse line) := by
  induction line with
  | nil => exact ⟨rfl, rfl⟩
  | cons b line ih =>
    by_cases hb : b = 0x0A
    · subst hb
      exact ⟨rfl, rfl⟩
    have hlead := hashBang_crlf (b :: line)
    rw [crlf_other hb] at hlead ⊢
    cases hgap : isGapByte b with
    | true =>
      rw [(defuse_gap hgap _).1, (defuse_gap hgap _).1, (defuse_gap hgap _).2,
        (defuse_gap hgap _).2, ih.1, ih.2, crlf_other hb]
      exact ⟨rfl, rfl⟩
    | false =>
      rw [isInterpreterLine_cons hgap, isInterpreterLine_cons hgap, hlead]
      refine ⟨rfl, ?_⟩
      cases hbegins : [0x23, 0x21].isPrefixOf (b :: line) with
      | true =>
        rw [defuse_of_hashBang (hlead.trans hbegins), defuse_of_hashBang hbegins,
          crlf_other (by decide), crlf_other (by decide), crlf_other hb]
      | false =>
        rw [defuse_of_other hgap (hlead.trans hbegins), defuse_of_other hgap hbegins,
          crlf_other hb]

/-- Both need a copy or neither does. -/
theorem needsCopy_crlf (content : Bytes) : needsCopy (crlf content) = needsCopy content := by
  have hline : isInterpreterLine ∘ crlf = isInterpreterLine :=
    funext fun line => (defuse_crlf line).1
  rw [needsCopy, rawLines_crlf, List.any_map, hline, needsCopy]

/-- Behind the line that names the file the copies differ as the files do. -/
theorem copyOf_crlf (p : Path) (content : Bytes) :
    copyOf p (crlf content) = encode (lineMarker p) ++ crlf (slashed [] content) := by
  have hline : (fun line => defuse (crlf line)) = fun line => crlf (defuse line) :=
    funext fun line => (defuse_crlf line).2
  rw [copyOf, rawLines_crlf, List.flatMap_map, hline, ← flatMap_defuse, crlf, List.flatMap_assoc]
  rfl

/-! ## A line with a carriage return at its end -/

/-- A line of a file ends with a line feed, or has none. -/
theorem exists_body {content line : Bytes} (h : line ∈ rawLines content) :
    ∃ body, 0x0A ∉ body ∧ (line = body ∨ line = body ++ [0x0A]) := by
  induction content generalizing line with
  | nil => cases h
  | cons b content ih =>
    rw [rawLines_cons] at h
    split at h
    · next hb =>
      rcases List.mem_cons.mp h with rfl | h
      · exact ⟨[], List.not_mem_nil, .inr (by rw [hb]; rfl)⟩
      · exact ih h
    · next hb =>
      cases hlines : rawLines content with
      | nil =>
        rw [hlines] at h
        obtain rfl := List.mem_singleton.mp h
        exact ⟨[b], by simpa using Ne.symm hb, .inl rfl⟩
      | cons first more =>
        rw [hlines, joinFirst] at h
        rcases List.mem_cons.mp h with rfl | h
        · obtain ⟨body, hbody, hfirst⟩ := ih (hlines ▸ List.mem_cons_self)
          refine ⟨b :: body, ?_, hfirst.imp (congrArg (b :: ·)) (congrArg (b :: ·))⟩
          simp [hbody, Ne.symm hb]
        · exact ih (hlines ▸ List.mem_cons_of_mem _ h)

/-- A line is searched for directives as before, or with a carriage return at its end. -/
theorem readableLine_crlf {content line : Bytes} (h : line ∈ rawLines content) :
    readableLine (crlf line) = readableLine line ∨
      readableLine (crlf line) = readableLine line ++ ['\r'] := by
  have hdefused : defuse line ∈ rawLines (slashed [] content) := by
    rw [rawLines_slashed]
    exact List.mem_map_of_mem h
  obtain ⟨body, hbody, hline⟩ := exists_body hdefused
  rw [readableLine_eq, readableLine_eq, (defuse_crlf line).2]
  rcases hline with hline | hline
  · rw [hline, crlf_of_not_mem hbody]
    exact .inl rfl
  · right
    have hcrlf : crlf (body ++ [0x0A]) = (body ++ [0x0D]) ++ [0x0A] := by
      rw [crlf_append, crlf_of_not_mem hbody, List.append_assoc]
      rfl
    have horiginal : ∀ front : Bytes, originalLine (front ++ [0x0A]) = decoded front := by
      intro front
      rw [originalLine, List.getLast?_concat, List.dropLast_concat]
      rfl
    rw [hline, hcrlf, horiginal, horiginal, decoded_ascii (by decide)]
    rfl

/-! ## What a carriage return at the end of a line tells -/

/-- No marker ends with a carriage return. -/
theorem markedAt_return {line : List Char} {place : Nat} :
    MarkedAt (line ++ ['\r']) place ↔ MarkedAt line place := by
  refine ⟨fun h => ?_, fun h => (markedAt_append_iff h.length_le).mpr h⟩
  have hroom := h.length_le
  rw [List.length_append, List.length_singleton] at hroom
  refine (markedAt_append_iff ?_).mp h
  by_contra hshort
  have hplace : place ≤ line.length := by
    have hmarker : marker.length = 4 := rfl
    omega
  have hlead := List.isPrefixOf_iff_prefix.mp h.1
  have hlength : (line.drop place ++ ['\r']).length ≤ marker.length := by
    rw [List.length_append, List.length_drop, List.length_singleton]
    omega
  rw [List.drop_append_of_le_length hplace] at hlead
  have hlast := congrArg List.getLast? (hlead.eq_of_length_le hlength)
  rw [List.getLast?_concat] at hlast
  cases hlast

/-- A carriage return at the end of a line makes no difference to its marker. -/
theorem findMarker?_return (line : List Char) :
    findMarker? (line ++ ['\r']) = findMarker? line := by
  ext place
  simp only [findMarker?_eq_some_iff, markedAt_return]

/-- A carriage return is trimmed at the end. -/
theorem trimEnd_return (s : List Char) : trimEnd (s ++ ['\r']) = trimEnd s := by
  rw [trimEnd, List.reverse_append, List.reverse_singleton, List.singleton_append,
    List.dropWhile_cons_of_pos (by decide), trimEnd]

namespace Directive

/-- A carriage return at the end of a key and a value belongs to the value. -/
theorem keyValue?_return (text : List Char) : keyValue? (text ++ ['\r']) =
    (keyValue? text).map fun found => (found.1, found.2 ++ ['\r']) := by
  rw [keyValue?, keyValue?, dropWhile_append_cons (by decide), dropWhile_append_cons (by decide),
    takeWhile_append_cons (by decide)]
  cases (text.dropWhile isKeyChar).dropWhile isGap with
  | nil => rfl
  | cons c rest =>
    by_cases hcolon : c = ':'
    · subst hcolon
      have hvalue : (rest ++ ['\r']).dropWhile isGap = rest.dropWhile isGap ++ ['\r'] :=
        dropWhile_append_cons (by decide) rest []
      have hplain : (rest.dropWhile isGap ++ ['\r']).contains '\n' =
          (rest.dropWhile isGap).contains '\n' := by simp
      simp only [List.cons_append, hvalue, hplain]
      split <;> rfl
    · simp [hcolon]

/-- Keys, values and unknown texts are trimmed; flags are not. -/
theorem parse_return {rest : List Char} (hflags : (rest.dropWhile isGap).head? ≠ some '-') :
    parse (rest ++ ['\r']) = parse rest := by
  have hhead : ∀ c, c ≠ '\r' → ((rest.dropWhile isGap ++ ['\r']).head? = some c ↔
      (rest.dropWhile isGap).head? = some c) := by
    intro c hc
    cases rest.dropWhile isGap with
    | nil => simp [Ne.symm hc]
    | cons d text => rfl
  rw [parse, parse, dropWhile_append_cons (by decide), keyValue?_return]
  simp only [hhead '-' (by decide), hhead '/' (by decide), if_neg hflags, trimEnd_return]
  cases keyValue? (rest.dropWhile isGap) with
  | none => rfl
  | some found => simp only [Option.map_some, trimEnd_return]

/-- What begins with a dash is flags. -/
theorem parse_flags {rest : List Char} (hflags : (rest.dropWhile isGap).head? = some '-') :
    parse rest = .flags (String.ofList (rest.dropWhile isGap)) := by
  rw [parse, if_pos hflags]

end Directive

/-- Behind flags that leave no quote open and no backslash behind, a carriage return is a blank. -/
theorem split_return {text : List Char} (h : (Words.scan {} text).AtRest) :
    Words.split (String.ofList (text ++ ['\r'])) = Words.split (String.ofList text) := by
  rw [Words.split, Words.split, String.toList_ofList, String.toList_ofList, Words.scan_append]
  show ((Words.scan {} text).step '\r').words = _
  rw [h.step_blank (by decide), Words.State.words_endWord]

-- A quote that is left open takes the carriage return in.
example : Words.split "-D'A\r" ≠ Words.split "-D'A" := by decide

namespace Include

/-- What stands behind the delimiter that closes a target makes no difference. -/
theorem Delimited.behind {text : List Char} {i : Include} (h : Delimited text i) :
    ∃ front close rest, text = front ++ close :: rest ∧ close ≠ '\r' ∧
      ∀ other, Delimited (front ++ close :: other) i := by
  cases h with
  | @beside target hne hopen rest =>
    exact ⟨'"' :: target.toList, '"', rest, rfl, by decide, fun other => .beside hne hopen other⟩
  | @system target hne hopen rest =>
    exact ⟨'<' :: target.toList, '>', rest, rfl, by decide, fun other => .system hne hopen other⟩

/-- What stands behind the closing delimiter does not matter. -/
theorem Names.behind {line : List Char} {i : Include} (h : Names line i) :
    ∃ front close rest, line = front ++ close :: rest ∧ close ≠ '\r' ∧
      ∀ other, Names (front ++ close :: other) i := by
  cases h with
  | @mk gap gap' gap'' text _ hgap hgap' hgap'' htext =>
  obtain ⟨front, close, rest, rfl, hclose, hother⟩ := htext.behind
  refine ⟨gap ++ '#' :: (gap' ++ ("include".toList ++ (gap'' ++ front))), close, rest, ?_, hclose,
    fun other => ?_⟩
  · simp only [List.append_assoc, List.cons_append]
  · have hnames := Names.mk hgap hgap' hgap'' (hother other)
    simpa only [List.append_assoc, List.cons_append] using hnames

/-- A line names the same header with a carriage return at its end. -/
theorem names_return {line : List Char} {i : Include} :
    Names (line ++ ['\r']) i ↔ Names line i := by
  constructor
  · intro h
    obtain ⟨front, close, rest, hline, hclose, hother⟩ := h.behind
    rcases List.eq_nil_or_concat rest with rfl | ⟨rest, c, rfl⟩
    · exact absurd (List.append_inj' hline rfl).2 (by simpa using Ne.symm hclose)
    · rw [List.concat_eq_append, ← List.cons_append, ← List.append_assoc] at hline
      rw [(List.append_inj' hline rfl).1]
      exact hother rest
  · intro h
    obtain ⟨front, close, rest, rfl, -, hother⟩ := h.behind
    rw [List.append_assoc, List.cons_append]
    exact hother _

/-- The same include is read off a line with a carriage return at its end. -/
theorem ofLine?_return (line : List Char) : ofLine? (line ++ ['\r']) = ofLine? line := by
  ext i
  rw [ofLine?_eq_some_iff, ofLine?_eq_some_iff, names_return]

end Include

/-! ## Flags -/

/-- No directive with flags ends with an open quote or behind a backslash that takes what follows.
-/
def FlagsAtRest (content : Bytes) : Prop :=
  ∀ line ∈ rawLines content, ∀ text, behindMarker? (readableLine line) = some text →
    text.head? = some '-' → (Words.scan {} text).AtRest

instance (content : Bytes) : Decidable (FlagsAtRest content) :=
  inferInstanceAs (Decidable (∀ line ∈ rawLines content, ∀ text ∈ behindMarker? (readableLine line),
    text.head? = some '-' → (Words.scan {} text).AtRest))

end CxxScript.Source

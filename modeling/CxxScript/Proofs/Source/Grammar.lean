import CxxScript.Proofs.Source.Marking
import CxxScript.Proofs.Text.Trimming

/-!
# The grammar of directives

Behind the marker and some gaps a directive begins with a dash, spells a key and a value, begins
with a slash, or is unknown. `Directive.Says` tells the four cases by what a text is made of. They
exclude each other, and a directive is read as the one that applies. A key and a value that have
been written are found again, whatever gaps stand around them: `Directive.parse_grammar`.
-/

set_option autoImplicit false

namespace CxxScript.Source.Directive

open Text

/-- A text that does not begin with a gap and does not end with a blank. -/
structure IsValue (value : List Char) : Prop where
  start : ∀ c, value.head? = some c → isGap c = false
  stop : ∀ c, value.getLast? = some c → isBlank c = false

instance (value : List Char) : Decidable (IsValue value) :=
  decidable_of_iff
    (value.head?.all (fun c => !isGap c) = true ∧ value.getLast?.all (fun c => !isBlank c) = true)
    (by
      simp only [Option.all_eq_true, Bool.not_eq_true']
      exact ⟨fun ⟨hstart, hstop⟩ => ⟨hstart, hstop⟩, fun h => ⟨h.start, h.stop⟩⟩)

/-- A text spells a key and a value: there may be gaps around the colon, and blanks at the end. -/
inductive Spells : List Char → List Char → List Char → Prop
  | mk {key value gap gap' trailing : List Char} (hkey : key.all isKeyChar = true)
      (hgap : gap.all isGap = true) (hgap' : gap'.all isGap = true) (hvalue : IsValue value)
      (htrailing : trailing.all isBlank = true) :
      Spells (key ++ (gap ++ ':' :: (gap' ++ (value ++ trailing)))) key value

/-- What a text behind the marker says that does not begin with a gap. -/
inductive Says (text : List Char) : Directive → Prop
  | flags (hdash : text.head? = some '-') : Says text (.flags (String.ofList text))
  | keyValue {key value : List Char} (hspells : Spells text key value) :
      Says text (.keyValue (String.ofList key) (String.ofList value))
  | interpreter (hslash : text.head? = some '/') : Says text .interpreter
  | unknown {body trailing : List Char} (hdash : text.head? ≠ some '-')
      (hslash : text.head? ≠ some '/') (hkey : ∀ key value, ¬ Spells text key value)
      (htext : text = body ++ trailing) (htrailing : trailing.all isBlank = true)
      (hbody : ∀ c, body.getLast? = some c → isBlank c = false) :
      Says text (.unknown (String.ofList body))

/-- A gap is no character of a key. -/
theorem isKeyChar_of_isGap {c : Char} (h : isGap c = true) : isKeyChar c = false := by
  simp only [isGap, Bool.or_eq_true, beq_iff_eq] at h
  rcases h with rfl | rfl <;> rfl

/-- A key is over where gaps and a colon follow. -/
theorem stops_key {gap : List Char} (hgap : gap.all isGap = true) (rest : List Char) :
    ∀ c, (gap ++ ':' :: rest).head? = some c → isKeyChar c = false := by
  intro c hc
  cases gap with
  | nil =>
    cases hc
    rfl
  | cons d gap =>
    cases hc
    rw [List.all_cons, Bool.and_eq_true] at hgap
    exact isKeyChar_of_isGap hgap.1

/-! ## Keys and values -/

/-- A key and a value that are found in a text are spelled by it. -/
theorem spells_of_keyValue? {text key value : List Char}
    (h : keyValue? text = some (key, value)) : Spells text key (trimEnd value) := by
  unfold keyValue? at h
  split at h
  · next rest hcolon =>
    obtain ⟨gap, hgap, hgaps, -⟩ := dropWhile_eq_iff.mp hcolon
    obtain ⟨gap', hgap', hgaps', hstart⟩ := dropWhile_eq_iff.mp (rfl : rest.dropWhile isGap = _)
    obtain ⟨trailing, htrailing, hblanks, hstop⟩ :=
      trimEnd_eq_iff.mp (rfl : trimEnd (rest.dropWhile isGap) = _)
    have hvalue : IsValue (trimEnd (rest.dropWhile isGap)) := by
      refine ⟨fun c hc => hstart c ?_, hstop⟩
      rw [htrailing, List.head?_append, hc, Option.some_or]
    have htext : text = text.takeWhile isKeyChar ++ (gap ++ ':' :: (gap' ++
        (trimEnd (rest.dropWhile isGap) ++ trailing))) := by
      rw [← htrailing, ← hgap', ← hgap, List.takeWhile_append_dropWhile]
    have hspells : Spells text (text.takeWhile isKeyChar) (trimEnd (rest.dropWhile isGap)) := by
      have hmade := Spells.mk (List.all_takeWhile (p := isKeyChar) (l := text)) hgaps hgaps' hvalue
        hblanks
      rwa [← htext] at hmade
    dsimp only at h
    split at h
    · cases h
    · cases h
      exact hspells
  · cases h

/-- A text on one line that spells a key and a value is found to do so. -/
theorem keyValue?_of_spells {text key value : List Char} (h : Spells text key value)
    (hline : '\n' ∉ text) :
    ∃ found, keyValue? text = some (key, found) ∧ trimEnd found = value := by
  cases h with
  | @mk _ _ gap gap' trailing hkey hgap hgap' hvalue htrailing =>
  have hstop := stops_key hgap (gap' ++ (value ++ trailing))
  have hfront : (key ++ (gap ++ ':' :: (gap' ++ (value ++ trailing)))).takeWhile isKeyChar = key :=
    takeWhile_eq_of_run hkey hstop
  have hrest : (key ++ (gap ++ ':' :: (gap' ++ (value ++ trailing)))).dropWhile isKeyChar =
      gap ++ ':' :: (gap' ++ (value ++ trailing)) := dropWhile_eq_iff.mpr ⟨key, rfl, hkey, hstop⟩
  have hcolon : (gap ++ ':' :: (gap' ++ (value ++ trailing))).dropWhile isGap =
      ':' :: (gap' ++ (value ++ trailing)) := dropWhile_of_all hgap (by decide) _
  have hfound : (gap' ++ (value ++ trailing)).dropWhile isGap =
      (value ++ trailing).dropWhile isGap :=
    List.dropWhile_append_of_pos (List.all_eq_true.mp hgap')
  have hplain : ((value ++ trailing).dropWhile isGap).contains '\n' = false := by
    rw [List.contains_eq_mem, decide_eq_false_iff_not]
    intro hmem
    refine hline ?_
    have hsub := (List.dropWhile_sublist isGap).mem hmem
    simp only [List.mem_append, List.mem_cons] at hsub ⊢
    tauto
  refine ⟨(value ++ trailing).dropWhile isGap, ?_, trimEnd_eq_iff.mpr ?_⟩
  · rw [keyValue?, hfront, hrest, hcolon]
    show (if ((gap' ++ (value ++ trailing)).dropWhile isGap).contains '\n' = true then none
      else some (key, (gap' ++ (value ++ trailing)).dropWhile isGap)) = _
    rw [hfound, hplain, if_neg Bool.false_ne_true]
  · -- An empty value is no bound for the gaps: they run on into the blanks at the end.
    cases hne : value with
    | nil =>
      refine ⟨trailing.dropWhile isGap, rfl, ?_, fun c hc => by cases hc⟩
      rw [List.all_eq_true] at htrailing ⊢
      exact fun c hc => htrailing c ((List.dropWhile_sublist isGap).mem hc)
    | cons c rest =>
      have hc : isGap c = false := hvalue.start c (by rw [hne]; rfl)
      refine ⟨trailing, List.dropWhile_cons_of_neg (by simp [hc]), htrailing, ?_⟩
      rw [← hne]
      exact hvalue.stop

/-- A text on one line spells a key and a value just when they are found in it. -/
theorem spells_iff {text key value : List Char} (hline : '\n' ∉ text) :
    Spells text key value ↔
      ∃ found, keyValue? text = some (key, found) ∧ trimEnd found = value := by
  refine ⟨fun h => keyValue?_of_spells h hline, ?_⟩
  rintro ⟨found, hfound, rfl⟩
  exact spells_of_keyValue? hfound

/-! ## Reading -/

/-- What a text says is what is parsed of it. -/
theorem parse_of_says {rest : List Char} (hline : '\n' ∉ rest.dropWhile isGap) {d : Directive}
    (h : Says (rest.dropWhile isGap) d) : parse rest = d := by
  cases h with
  | flags hdash => rw [parse, if_pos hdash]
  | keyValue hspells =>
    obtain ⟨found, hfound, rfl⟩ := (spells_iff hline).mp hspells
    exact parse_keyValue hfound
  | interpreter hslash =>
    cases hfound : keyValue? (rest.dropWhile isGap) with
    | some found => exact absurd hslash (head_of_keyValue? hfound).2
    | none =>
      rw [parse, hfound, if_neg (by rw [hslash]; decide)]
      exact if_pos hslash
  | @unknown body trailing hdash hslash hkey htext htrailing hbody =>
    cases hfound : keyValue? (rest.dropWhile isGap) with
    | some found => exact absurd (spells_of_keyValue? hfound) (hkey _ _)
    | none =>
      rw [parse, hfound, if_neg hdash]
      dsimp only
      rw [if_neg hslash, trimEnd_eq_iff.mpr ⟨trailing, htext, htrailing, hbody⟩]

/-- A text says what is parsed of it. -/
theorem says_parse {rest : List Char} (hline : '\n' ∉ rest.dropWhile isGap) :
    Says (rest.dropWhile isGap) (parse rest) := by
  cases hfound : keyValue? (rest.dropWhile isGap) with
  | some found =>
    rw [parse_keyValue hfound]
    exact .keyValue (spells_of_keyValue? hfound)
  | none =>
    by_cases hdash : (rest.dropWhile isGap).head? = some '-'
    · rw [parse, if_pos hdash]
      exact .flags hdash
    · by_cases hslash : (rest.dropWhile isGap).head? = some '/'
      · rw [parse, if_neg hdash, hfound]
        dsimp only
        rw [if_pos hslash]
        exact .interpreter hslash
      · obtain ⟨trailing, htext, htrailing, hbody⟩ :=
          trimEnd_eq_iff.mp (rfl : trimEnd (rest.dropWhile isGap) = _)
        rw [parse, if_neg hdash, hfound]
        dsimp only
        rw [if_neg hslash]
        refine .unknown hdash hslash (fun key value hspells => ?_) htext htrailing hbody
        obtain ⟨found, hsome, -⟩ := (spells_iff hline).mp hspells
        rw [hfound] at hsome
        cases hsome

/-- Gaps in front of a key and a value, or of the colon where the key is empty, say nothing. -/
theorem spells_dropWhile {lead key gap gap' value trailing : List Char}
    (hlead : lead.all isGap = true) (hkey : key.all isKeyChar = true) (hgap : gap.all isGap = true)
    (hgap' : gap'.all isGap = true) (hvalue : IsValue value)
    (htrailing : trailing.all isBlank = true) :
    Spells ((lead ++ (key ++ (gap ++ ':' :: (gap' ++ (value ++ trailing))))).dropWhile isGap)
      key value := by
  rw [List.dropWhile_append_of_pos (List.all_eq_true.mp hlead)]
  cases key with
  | nil =>
    rw [List.nil_append, dropWhile_of_all hgap (by decide)]
    exact @Spells.mk [] value [] gap' trailing rfl rfl hgap' hvalue htrailing
  | cons c rest =>
    have hc : isGap c = false := by
      rw [List.all_cons, Bool.and_eq_true] at hkey
      rw [← Bool.not_eq_true]
      intro hgapped
      rw [isKeyChar_of_isGap hgapped] at hkey
      exact Bool.false_ne_true hkey.1
    rw [List.cons_append, List.dropWhile_cons_of_neg (by simp [hc]), ← List.cons_append]
    exact .mk hkey hgap hgap' hvalue htrailing

/-! ## The grammar and the reader -/

/-- Exactly one case of the grammar applies to a text on one line, and the text is read as that case
says. A key and a value that have been written are read again, whatever gaps stand around them. -/
theorem parse_grammar :
    (∀ rest : List Char, '\n' ∉ rest → (∃! d, Says (rest.dropWhile isGap) d) ∧
      ∀ d, parse rest = d ↔ Says (rest.dropWhile isGap) d) ∧
    ∀ (key value : String) (lead gap gap' trailing : List Char),
      key.toList.all isKeyChar = true → IsValue value.toList → '\n' ∉ value.toList →
      lead.all isGap = true → gap.all isGap = true → gap'.all isGap = true →
      trailing.all isBlank = true → '\n' ∉ trailing →
      parse (lead ++ (key.toList ++ (gap ++ ':' :: (gap' ++ (value.toList ++ trailing))))) =
        .keyValue key value := by
  have hdrop : ∀ {rest : List Char}, '\n' ∉ rest → '\n' ∉ rest.dropWhile isGap :=
    fun hline hmem => hline ((List.dropWhile_sublist isGap).mem hmem)
  constructor
  · intro rest hline
    have hreads : ∀ d, parse rest = d ↔ Says (rest.dropWhile isGap) d := by
      refine fun d => ⟨?_, parse_of_says (hdrop hline)⟩
      rintro rfl
      exact says_parse (hdrop hline)
    exact ⟨⟨parse rest, (hreads _).mp rfl, fun d hd => ((hreads d).mpr hd).symm⟩, hreads⟩
  · intro key value lead gap gap' trailing hkey hvalue hplain hlead hgap hgap' htrailing hblank
    have hspells := spells_dropWhile hlead hkey hgap hgap' hvalue htrailing
    have hsays := Says.keyValue hspells
    rw [String.ofList_toList, String.ofList_toList] at hsays
    refine parse_of_says (hdrop ?_) hsays
    have hgaps : ∀ {run : List Char}, run.all isGap = true → '\n' ∉ run := by
      intro run hrun hmem
      cases List.all_eq_true.mp hrun _ hmem
    have hletters : '\n' ∉ key.toList := by
      intro hmem
      cases List.all_eq_true.mp hkey _ hmem
    simp [hgaps hlead, hgaps hgap, hgaps hgap', hletters, hplain, hblank]

/-- A value with a colon, a slash, a dash and a wide space in it, behind an empty key and behind
one; a text that is neither flags nor an interpreter line for all the colons in it. -/
theorem parse_grammar_medley :
    parse " \t: :/\u2003-x".toList = .keyValue "" ":/\u2003-x" ∧
      parse "\tcxx_ : :/\u2003-x\u2003 ".toList = .keyValue "cxx_" ":/\u2003-x" ∧
      (parse " a/b: -c\r".toList = .unknown "a/b: -c" ↔
        Says ("a/b: -c\r".toList) (.unknown "a/b: -c")) ∧
      (∃! d, Says "/usr/bin: x".toList d) := by
  obtain ⟨hreads, hwritten⟩ := parse_grammar
  refine ⟨?_, ?_, ?_, ?_⟩
  · apply hwritten "" ":/\u2003-x" " ".toList "\t".toList " ".toList []
    all_goals decide
  · apply hwritten "cxx_" ":/\u2003-x" "\t".toList " ".toList " ".toList "\u2003 ".toList
    all_goals decide
  · exact (hreads " a/b: -c\r".toList (by decide)).2 (.unknown "a/b: -c")
  · exact (hreads "/usr/bin: x".toList (by decide)).1

end CxxScript.Source.Directive

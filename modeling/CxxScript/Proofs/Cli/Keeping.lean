import CxxScript.Cli.RcFile
import CxxScript.Proofs.Cli.Options

/-!
# What the lines of a file of options give

A line is blank, a comment or an entry, `isPassedOver_or_isEntry`, and an entry stands for one
option, however much of its start is written, `takenAlike_prefixes`. So one line gives nothing, or
an option, or a warning with its number, and the lines of a text give what each of them gives, in
order, `taken_parse`. Whatever is kept is an option, `Taken.isOption`.
-/

set_option autoImplicit false

namespace CxxScript.Cli

open Text (isBlank)

/-! ## Lines -/

/-- What a line can say: there is no blank at its ends, and it is no comment. -/
structure IsEntry (text : String) : Prop where
  nonempty : text ≠ ""
  head : ∀ c, text.toList.head? = some c → isBlank c = false ∧ c ≠ '#'
  last : ∀ c, text.toList.getLast? = some c → isBlank c = false

/-- A line says a text: there are only blanks around it. -/
def Says (line : List Char) (text : String) : Prop :=
  ∃ lead trailing, line = lead ++ text.toList ++ trailing ∧
    lead.all isBlank = true ∧ trailing.all isBlank = true

/-- A line is blank or a comment. -/
def IsPassedOver (line : List Char) : Prop :=
  line.all isBlank = true ∨ ∃ lead rest, line = lead ++ '#' :: rest ∧ lead.all isBlank = true

/-- A line that says an entry is that entry when it is trimmed. -/
theorem trim_of_says {line : List Char} {text : String} (hline : Says line text)
    (htext : IsEntry text) : Text.trim line = text.toList := by
  obtain ⟨lead, trailing, hsplit, hlead, htrailing⟩ := hline
  rw [Text.trim_eq_iff]
  exact ⟨lead, trailing, hsplit, hlead, htrailing, fun c hc => (htext.head c hc).1, htext.last⟩

/-- A line that is passed over is blank when it is trimmed, or begins with a hash sign. -/
theorem trim_of_isPassedOver {line : List Char} (h : IsPassedOver line) :
    Text.trim line = [] ∨ (Text.trim line).head? = some '#' := by
  rcases h with hblank | ⟨lead, rest, rfl, hlead⟩
  · left
    rw [Text.trim_eq_iff]
    exact ⟨line, [], by simp, hblank, rfl, by simp, by simp⟩
  · right
    have hstart : Text.trimStart (lead ++ '#' :: rest) = '#' :: rest :=
      Text.dropWhile_eq_iff.mpr ⟨lead, rfl, hlead, by rintro c ⟨⟩; rfl⟩
    obtain ⟨trailing, hsplit, htrailing, -⟩ := Text.trimEnd_eq_iff.mp (rfl :
      Text.trimEnd ('#' :: rest) = _)
    rw [Text.trim, hstart]
    cases hbody : Text.trimEnd ('#' :: rest) with
    | nil =>
      rw [hbody, List.nil_append] at hsplit
      rw [← hsplit] at htrailing
      cases (List.all_eq_true.mp htrailing '#' List.mem_cons_self)
    | cons c body =>
      rw [hbody, List.cons_append] at hsplit
      rw [(List.cons.inj hsplit).1]
      rfl

/-- Every line is passed over or says an entry. -/
theorem isPassedOver_or_isEntry (line : List Char) :
    IsPassedOver line ∨ ∃ text, IsEntry text ∧ Says line text := by
  obtain ⟨lead, trailing, hsplit, hlead, htrailing, hhead, hlast⟩ :=
    Text.trim_eq_iff.mp (rfl : Text.trim line = _)
  cases hbody : Text.trim line with
  | nil =>
    left
    left
    rw [hsplit, hbody, List.append_nil, List.all_append, hlead, htrailing, Bool.and_self]
  | cons c body =>
    rw [hbody] at hsplit hhead hlast
    by_cases hc : c = '#'
    · left
      right
      refine ⟨lead, body ++ trailing, ?_, hlead⟩
      rw [hsplit, hc]
      simp
    · right
      refine ⟨String.ofList (c :: body), ⟨by simp, ?_, ?_⟩, lead, trailing, ?_, hlead, htrailing⟩
      · rw [String.toList_ofList]
        intro d hd
        refine ⟨hhead d hd, ?_⟩
        cases hd
        exact hc
      · rw [String.toList_ofList]
        exact hlast
      · rw [String.toList_ofList, hsplit]

namespace RcFile

/-! ## What an entry stands for -/

/-- An entry with the two dashes and the prefix is the option itself. -/
theorem optionOf_long (x : String) : optionOf ("--hbcxx-" ++ x) = withEquals ("--hbcxx-" ++ x) := by
  have hlong : startsWith ("--hbcxx-" ++ x) optionStart = true := startsWith_append _ _
  rw [optionOf, if_pos hlong]

/-- An entry with the prefix gets the two dashes. -/
theorem optionOf_short (x : String) : optionOf ("hbcxx-" ++ x) = withEquals ("--hbcxx-" ++ x) := by
  have hlong : ¬ startsWith ("hbcxx-" ++ x) optionStart = true := by
    rw [startsWith, String.toList_append]
    simp [optionStart]
  rw [optionOf, if_neg hlong, if_pos (startsWith_append _ _), ← String.append_assoc]
  rfl

/-- An entry without the prefix gets the dashes and the prefix. -/
theorem optionOf_bare {x : String} (hshort : ¬ ∃ rest, x = "hbcxx-" ++ rest)
    (hlong : ¬ ∃ rest, x = "--hbcxx-" ++ rest) : optionOf x = withEquals ("--hbcxx-" ++ x) := by
  have hlong' : ¬ startsWith x optionStart = true := mt startsWith_iff.mp hlong
  have hshort' : ¬ startsWith x "hbcxx-" = true := mt startsWith_iff.mp hshort
  rw [optionOf, if_neg hlong', if_neg hshort']
  rfl

/-- An entry always becomes one of the tool's own options, whether there is such an option or
not. -/
theorem exists_optionOf (text : String) : ∃ rest, optionOf text = "--hbcxx-" ++ rest := by
  by_cases hlong : ∃ rest, text = "--hbcxx-" ++ rest
  · obtain ⟨rest, rfl⟩ := hlong
    rw [optionOf_long]
    exact exists_withEquals rest
  · by_cases hshort : ∃ rest, text = "hbcxx-" ++ rest
    · obtain ⟨rest, rfl⟩ := hshort
      rw [optionOf_short]
      exact exists_withEquals rest
    · rw [optionOf_bare hshort hlong]
      exact exists_withEquals text

/-- The start of an option may be put before an entry. -/
theorem isEntry_append {start x : String} (hstart : IsEntry start) (hx : IsEntry x) :
    IsEntry (start ++ x) := by
  have hstartNe : start.toList ≠ [] := mt String.toList_eq_nil_iff.mp hstart.nonempty
  have hxNe : x.toList ≠ [] := mt String.toList_eq_nil_iff.mp hx.nonempty
  obtain ⟨c, cs, hstartList⟩ := List.exists_cons_of_ne_nil hstartNe
  obtain ⟨d, ds, hxList⟩ := List.exists_cons_of_ne_nil hxNe
  refine ⟨?_, ?_, ?_⟩
  · rw [ne_eq, ← String.toList_eq_nil_iff, String.toList_append, hstartList]
    simp
  · intro b hb
    apply hstart.head b
    rw [String.toList_append, hstartList] at hb
    rw [hstartList]
    exact hb
  · intro b hb
    apply hx.last b
    rw [String.toList_append, hxList, List.getLast?_append, List.getLast?_cons] at hb
    rw [hxList, List.getLast?_cons]
    exact hb

/-! ## What a line gives -/

/-- The report on a line that holds no option. -/
def badOption (path : Path) (number : Nat) (text : String) : String :=
  s!"{path.text}:{number}: bad option: {text}"

variable {path : Path} {line : List Char} {text : String}

/-- A line that is passed over adds nothing. -/
theorem add_passedOver (h : IsPassedOver line) (rc : RcFile) (index : Nat) :
    rc.add path index line = rc := by
  rcases trim_of_isPassedOver h with hblank | hcomment
  · simp [add, hblank]
  · simp [add, hcomment]

/-- A line that says an entry adds its option where that can be read, and a warning otherwise. -/
theorem add_entry (hline : Says line text) (htext : IsEntry text) (rc : RcFile) (index : Nat) :
    rc.add path index line = match Options.parse [optionOf text] with
      | .ok _ => { rc with options := rc.options ++ [optionOf text] }
      | .error _ => { rc with warnings := rc.warnings ++ [badOption path (index + 1) text] } := by
  have hnone : ¬ (text.toList.isEmpty = true ∨ text.toList.head? = some '#') := by
    rintro (h | h)
    · exact htext.nonempty (String.toList_eq_nil_iff.mp (List.isEmpty_iff.mp h))
    · exact (htext.head _ h).2 rfl
  rw [add, trim_of_says hline htext, String.ofList_toList, if_neg]
  · rfl
  · simpa using hnone

/-- A token other than the double dash is an option when it can be read alone. -/
theorem isOption_iff_parse {token : String} (h : token ≠ "--") :
    IsOption token ↔ ∃ o, Options.parse [token] = .ok o := by
  rw [Options.isOption_iff {}, Options.parse, Options.addAll_cons h]
  cases ({} : Options).add token with
  | error e => simp [Except.bind]
  | ok o => simp [Except.bind, Options.addAll]

/-- No entry becomes the double dash. -/
theorem optionOf_ne_dashes (text : String) : optionOf text ≠ "--" := by
  obtain ⟨rest, hrest⟩ := exists_optionOf text
  rw [hrest]
  exact own_ne_dashes rest

/-- A line that says an option adds it. -/
theorem add_option (hline : Says line text) (htext : IsEntry text) (h : IsOption (optionOf text))
    (rc : RcFile) (index : Nat) :
    rc.add path index line = { rc with options := rc.options ++ [optionOf text] } := by
  obtain ⟨o, ho⟩ := (isOption_iff_parse (optionOf_ne_dashes text)).mp h
  rw [add_entry hline htext, ho]

/-- A line that says an entry that is no option adds a warning. -/
theorem add_warning (hline : Says line text) (htext : IsEntry text) (h : ¬ IsOption (optionOf text))
    (rc : RcFile) (index : Nat) : rc.add path index line =
      { rc with warnings := rc.warnings ++ [badOption path (index + 1) text] } := by
  cases ho : Options.parse [optionOf text] with
  | ok o => exact absurd ((isOption_iff_parse (optionOf_ne_dashes text)).mpr ⟨o, ho⟩) h
  | error e => rw [add_entry hline htext, ho]

/-- Lines that say one of these texts all give the same option, or all give a warning. -/
def TakenAlike (path : Path) (texts : List String) : Prop :=
  (∃ option, ∀ text ∈ texts, ∀ line, Says line text → ∀ (rc : RcFile) (index : Nat),
    rc.add path index line = { rc with options := rc.options ++ [option] }) ∨
  ∀ text ∈ texts, ∀ line, Says line text → ∀ (rc : RcFile) (index : Nat),
    rc.add path index line =
      { rc with warnings := rc.warnings ++ [badOption path (index + 1) text] }

/-- The start that all options share may be left out, or the dashes before it. -/
theorem takenAlike_prefixes {x : String} (hx : IsEntry x)
    (hshort : ¬ ∃ rest, x = "hbcxx-" ++ rest) (hlong : ¬ ∃ rest, x = "--hbcxx-" ++ rest) :
    TakenAlike path [x, "hbcxx-" ++ x, "--hbcxx-" ++ x] := by
  have hentry : ∀ text ∈ [x, "hbcxx-" ++ x, "--hbcxx-" ++ x], IsEntry text := by
    have hstart : IsEntry "hbcxx-" := ⟨by decide, by rintro c ⟨⟩; decide, by rintro c ⟨⟩; decide⟩
    have hstart' : IsEntry "--hbcxx-" := ⟨by decide, by rintro c ⟨⟩; decide, by rintro c ⟨⟩; decide⟩
    simp only [List.forall_mem_cons]
    exact ⟨hx, isEntry_append hstart hx, isEntry_append hstart' hx, by simp⟩
  have hoption : ∀ text ∈ [x, "hbcxx-" ++ x, "--hbcxx-" ++ x],
      optionOf text = withEquals ("--hbcxx-" ++ x) := by
    simp only [List.forall_mem_cons]
    exact ⟨optionOf_bare hshort hlong, optionOf_short x, optionOf_long x, by simp⟩
  by_cases h : IsOption (withEquals ("--hbcxx-" ++ x))
  · left
    refine ⟨withEquals ("--hbcxx-" ++ x), ?_⟩
    intro text htext line hline rc index
    rw [← hoption text htext] at h ⊢
    exact add_option hline (hentry text htext) h rc index
  · right
    intro text htext line hline rc index
    rw [← hoption text htext] at h
    exact add_warning hline (hentry text htext) h rc index

/-! ## What a text gives -/

/-- The options and the warnings that lines give, where the first of the lines has the number
`number`. -/
inductive Taken (path : Path) : Nat → List (List Char) → List String → List String → Prop
  | nil {number : Nat} : Taken path number [] [] []
  | passedOver {number : Nat} {line : List Char} {rest : List (List Char)}
      {options warnings : List String} :
      IsPassedOver line → Taken path (number + 1) rest options warnings →
      Taken path number (line :: rest) options warnings
  | option {number : Nat} {line : List Char} {text : String} {rest : List (List Char)}
      {options warnings : List String} :
      Says line text → IsEntry text → IsOption (optionOf text) →
      Taken path (number + 1) rest options warnings →
      Taken path number (line :: rest) (optionOf text :: options) warnings
  | warning {number : Nat} {line : List Char} {text : String} {rest : List (List Char)}
      {options warnings : List String} :
      Says line text → IsEntry text → ¬ IsOption (optionOf text) →
      Taken path (number + 1) rest options warnings →
      Taken path number (line :: rest) options (badOption path number text :: warnings)

/-- Reading some lines adds the options and the warnings that are taken of them. -/
theorem taken_addLines (path : Path) (index : Nat) (lines : List (List Char)) (rc : RcFile) :
    ∃ options warnings, Taken path (index + 1) lines options warnings ∧
      addLines path index lines rc = ⟨rc.options ++ options, rc.warnings ++ warnings⟩ := by
  induction lines generalizing index rc with
  | nil => exact ⟨[], [], .nil, by simp [addLines]⟩
  | cons line rest ih =>
    rw [addLines]
    obtain ⟨options, warnings, htaken, hrest⟩ := ih (index + 1) (rc.add path index line)
    rcases isPassedOver_or_isEntry line with h | ⟨text, htext, hline⟩
    · refine ⟨options, warnings, .passedOver h htaken, ?_⟩
      rw [hrest, add_passedOver h]
    · by_cases h : IsOption (optionOf text)
      · refine ⟨optionOf text :: options, warnings, .option hline htext h htaken, ?_⟩
        rw [hrest, add_option hline htext h]
        simp
      · refine ⟨options, badOption path (index + 1) text :: warnings,
          .warning hline htext h htaken, ?_⟩
        rw [hrest, add_warning hline htext h]
        simp

/-- Every line of a text gives what it gives, in order, and is told by its number. -/
theorem taken_parse (path : Path) (text : String) : Taken path 1 (Text.lines text.toList)
    (RcFile.parse path text).options (RcFile.parse path text).warnings := by
  obtain ⟨options, warnings, htaken, h⟩ := taken_addLines path 0 (Text.lines text.toList) {}
  rw [RcFile.parse, h]
  exact htaken

/-- What is taken of some lines as options are options. -/
theorem Taken.isOption {path : Path} {number : Nat} {lines : List (List Char)}
    {options warnings : List String} (h : Taken path number lines options warnings) :
    ∀ option ∈ options, IsOption option := by
  induction h with
  | nil => simp
  | passedOver _ _ ih => exact ih
  | option _ _ hoption _ ih => exact List.forall_mem_cons.mpr ⟨hoption, ih⟩
  | warning _ _ _ _ ih => exact ih

end RcFile

end CxxScript.Cli

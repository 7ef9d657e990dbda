import CxxScript.Text.Words

/-!
# Texts that are read in parts

Between two words the reader remembers nothing but the words before, so a text that is cut at a
blank gives the words of its two parts, one after the other: `words_scan_endWord`. With a backslash
before every character a word is taken as it stands, whatever is in it, `scan_escape`. So every list
of words without an empty one is what some text is read as, and no other list is: `split_composes`.
-/

set_option autoImplicit false

namespace CxxScript.Text.Words

namespace State

/-- No quote is open, and no backslash waits for the character that it takes. -/
def AtRest (s : State) : Prop := s.quote = none ∧ s.escaped = false

instance (s : State) : Decidable s.AtRest :=
  inferInstanceAs (Decidable (s.quote = none ∧ s.escaped = false))

/-- The state with more finished words in front of its own. -/
def behind (before : List String) (s : State) : State := { s with done := s.done ++ before }

/-- Where there is no word at hand, nothing ends. -/
theorem endWord_of_nil {s : State} (h : s.current = []) : s.endWord = s := by
  simp [endWord, h]

/-- There is no word at hand when one has ended. -/
theorem current_endWord (s : State) : s.endWord.current = [] := by
  unfold endWord
  split
  · next hempty => exact List.isEmpty_iff.mp hempty
  · rfl

/-- The end of a word opens nothing. -/
theorem AtRest.endWord {s : State} (h : s.AtRest) : s.endWord.AtRest := by
  unfold State.endWord
  split
  · exact h
  · exact h

/-- Behind a finished word nothing is left but the words. -/
theorem AtRest.endWord_eq {s : State} (h : s.AtRest) :
    s.endWord = { done := s.words.reverse } := by
  obtain ⟨hquote, hescaped⟩ := h.endWord
  have hcurrent := s.current_endWord
  rw [words, List.reverse_reverse]
  cases hend : s.endWord with
  | mk done current quote escaped =>
    rw [hend] at hquote hescaped hcurrent
    subst hquote hescaped hcurrent
    rfl

/-- The words are the same when the last one has ended. -/
theorem words_endWord (s : State) : s.endWord.words = s.words := by
  rw [words, endWord_of_nil s.current_endWord, words]

/-- A blank ends the word at hand. -/
theorem AtRest.step_blank {s : State} (h : s.AtRest) {c : Char} (hc : isBlank c = true) :
    s.step c = s.endWord := by
  have hplain : c ≠ '\\' ∧ c ≠ '\'' ∧ c ≠ '"' := by
    refine ⟨?_, ?_, ?_⟩ <;>
    · rintro rfl
      cases hc
  simp [step, h.1, h.2, hc, hplain]

/-- To end a word leaves the words in front as they are. -/
theorem endWord_behind (before : List String) (s : State) :
    (s.behind before).endWord = s.endWord.behind before := by
  by_cases hempty : s.current = []
  · simp [endWord, behind, hempty]
  · simp [endWord, behind, hempty]

/-- The words in front come first. -/
theorem words_behind (before : List String) (s : State) :
    (s.behind before).words = before.reverse ++ s.words := by
  rw [words, endWord_behind]
  simp [words, behind]

/-- Reading a character goes by the word at hand and not by the words before it. -/
theorem step_behind (before : List String) (s : State) (c : Char) :
    (s.behind before).step c = (s.step c).behind before := by
  obtain ⟨done, current, quote, escaped⟩ := s
  cases escaped with
  | true => rfl
  | false =>
    by_cases hslash : c = '\\'
    · simp [step, behind, hslash]
    · cases quote with
      | some q =>
        by_cases hclose : q = c
        · simp [step, behind, hslash, hclose]
        · simp [step, behind, take, hslash, Ne.symm hclose]
      | none =>
        by_cases hblank : isBlank c = true
        · rw [AtRest.step_blank ⟨rfl, rfl⟩ hblank, AtRest.step_blank ⟨rfl, rfl⟩ hblank,
            endWord_behind]
        · by_cases hopen : c = '\'' ∨ c = '"'
          · simp [step, behind, hslash, hopen]
          · simp [step, behind, take, hslash, hopen, hblank]

/-- Reading a character finishes the word at hand or leaves the finished words as they are. -/
theorem done_step (s : State) (c : Char) :
    (s.step c).done = s.done ∨ (s.step c).done = s.endWord.done := by
  unfold step
  repeat' split
  all_goals first | exact .inl rfl | exact .inr rfl

end State

/-- A text is read in the same way behind other words. -/
theorem scan_behind (before : List String) (s : State) (text : List Char) :
    scan (s.behind before) text = (scan s text).behind before := by
  induction text generalizing s with
  | nil => rfl
  | cons c rest ih =>
    have hstep := State.step_behind before s c
    simp only [scan, List.foldl_cons] at ih ⊢
    rw [hstep, ih]

/-! ## Cutting a text -/

/-- What is read behind a finished word is read as if nothing stood before it. -/
theorem words_scan_endWord {s : State} (hs : s.AtRest) (text : List Char) :
    (scan s.endWord text).words = s.words ++ (scan {} text).words := by
  have hfresh : s.endWord = State.behind s.words.reverse {} := hs.endWord_eq
  rw [hfresh, scan_behind, State.words_behind, List.reverse_reverse]

/-- No word that ends is empty. -/
theorem ne_empty_of_mem_endWord {s : State} (hs : ∀ word ∈ s.done, word ≠ "") :
    ∀ word ∈ s.endWord.done, word ≠ "" := by
  unfold State.endWord
  split
  · exact hs
  · next hsome => simpa using ⟨by simpa using hsome, hs⟩

/-- A finished word is never empty. -/
theorem ne_empty_of_mem_done {s : State} (hs : ∀ word ∈ s.done, word ≠ "") (text : List Char) :
    ∀ word ∈ (scan s text).done, word ≠ "" := by
  induction text generalizing s with
  | nil => exact hs
  | cons c rest ih =>
    apply ih
    rcases s.done_step c with hdone | hdone
    · rw [hdone]
      exact hs
    · rw [hdone]
      exact ne_empty_of_mem_endWord hs

/-! ## Spelling words -/

/-- A word with a backslash before each of its characters. -/
def escape (word : String) : List Char := word.toList.flatMap fun c => ['\\', c]

/-- Escaped words, each behind a gap of its own. -/
def spaced (items : List (List Char × String)) : List Char :=
  items.flatMap fun item => item.1 ++ escape item.2

/-- Escaped characters are taken as they stand. -/
theorem scan_escape (done : List String) (current : List Char) (word : String) :
    scan { done, current } (escape word) =
      { done, current := word.toList.reverse ++ current } := by
  have hchars : ∀ (text current : List Char),
      scan { done, current } (text.flatMap fun c => ['\\', c]) =
        { done, current := text.reverse ++ current } := by
    intro text
    induction text with
    | nil => simp [scan]
    | cons c rest ih =>
      intro current
      have hpair : scan { done, current } ['\\', c] = { done, current := c :: current } := by
        simp [scan, State.step, State.take]
      rw [List.flatMap_cons, scan_append, hpair, ih]
      simp
  exact hchars word.toList current

/-- A gap ends the word at hand, and opens nothing. -/
theorem scan_blanks {s : State} (hs : s.AtRest) {gap : List Char} (hgap : gap.all isBlank = true)
    (hsome : gap ≠ [] ∨ s.current = []) : scan s gap = s.endWord := by
  induction gap generalizing s with
  | nil => exact (State.endWord_of_nil (hsome.resolve_left fun h => h rfl)).symm
  | cons c rest ih =>
    rw [List.all_cons, Bool.and_eq_true] at hgap
    have hrest := ih hs.endWord hgap.2 (.inr s.current_endWord)
    rw [State.endWord_of_nil s.current_endWord] at hrest
    rw [scan, List.foldl_cons, hs.step_blank hgap.1]
    exact hrest

/-- Characters that take nothing, open no quote and separate no words are taken as they stand. -/
theorem scan_plain (done : List String) (current text : List Char)
    (hplain : ∀ c ∈ text, c ≠ '\\' ∧ c ≠ '\'' ∧ c ≠ '"' ∧ isBlank c = false) :
    scan { done, current } text = { done, current := text.reverse ++ current } := by
  induction text generalizing current with
  | nil => rfl
  | cons c rest ih =>
    obtain ⟨⟨hslash, hsingle, hdouble, hblank⟩, hrest⟩ := List.forall_mem_cons.mp hplain
    have hstep : State.step { done, current } c = { done, current := c :: current } := by
      simp [State.step, State.take, hslash, hsingle, hdouble, hblank]
    have hread := ih (c :: current) hrest
    rw [scan] at hread ⊢
    rw [List.foldl_cons, hstep, hread]
    simp

/-- Words with blanks between them, and maybe around them, are read as they are, when each is read
from how it is spelled. -/
theorem words_scan_spelled {spell : String → List Char} {items : List (List Char × String)}
    {trailing : List Char}
    (hspell : ∀ item ∈ items, ∀ done,
      scan { done } (spell item.2) = { done, current := item.2.toList.reverse })
    (hitems : ∀ item ∈ items, item.1.all isBlank = true ∧ item.2 ≠ "")
    (htrailing : trailing.all isBlank = true) {s : State} (hs : s.AtRest)
    (hgaps : s.current = [] ∧ (∀ item ∈ items.tail, item.1 ≠ []) ∨ ∀ item ∈ items, item.1 ≠ []) :
    (scan s ((items.flatMap fun item => item.1 ++ spell item.2) ++ trailing)).words =
      s.words ++ items.map (·.2) := by
  induction items generalizing s with
  | nil =>
    have hend : (scan s trailing).words = s.words := by
      by_cases hnone : trailing = []
      · subst hnone
        rfl
      · rw [scan_blanks hs htrailing (.inl hnone), s.words_endWord]
    simpa using hend
  | cons item rest ih =>
    obtain ⟨⟨hblank, hword⟩, hrest⟩ := List.forall_mem_cons.mp hitems
    obtain ⟨hspelled, hspells⟩ := List.forall_mem_cons.mp hspell
    have hgap : item.1 ≠ [] ∨ s.current = [] := by
      rcases hgaps with ⟨hcurrent, -⟩ | hall
      · exact .inr hcurrent
      · exact .inl (hall item List.mem_cons_self)
    have hbehind : ∀ next ∈ rest, next.1 ≠ [] := by
      rcases hgaps with ⟨-, htail⟩ | hall
      · exact htail
      · intro next hnext
        exact hall next (List.mem_cons_of_mem item hnext)
    -- The reader stands behind the word then, which is not finished before the next gap.
    have hread : scan s (item.1 ++ spell item.2) =
        { done := s.words.reverse, current := item.2.toList.reverse } := by
      rw [scan_append, scan_blanks hs hblank hgap, hs.endWord_eq, hspelled]
    have hwords : State.words { done := s.words.reverse, current := item.2.toList.reverse } =
        s.words ++ [item.2] := by
      simp [State.words, State.endWord, hword]
    rw [List.flatMap_cons, List.append_assoc, scan_append, hread,
      ih hspells hrest ⟨rfl, rfl⟩ (.inr hbehind), hwords]
    simp

/-- Escaped words with blanks between them, and maybe around them, are read as they are. -/
theorem words_scan_spaced {items : List (List Char × String)} {trailing : List Char}
    (hitems : ∀ item ∈ items, item.1.all isBlank = true ∧ item.2 ≠ "")
    (htrailing : trailing.all isBlank = true) {s : State} (hs : s.AtRest)
    (hgaps : s.current = [] ∧ (∀ item ∈ items.tail, item.1 ≠ []) ∨ ∀ item ∈ items, item.1 ≠ []) :
    (scan s (spaced items ++ trailing)).words = s.words ++ items.map (·.2) := by
  refine words_scan_spelled (fun item _ done => ?_) hitems htrailing hs hgaps
  rw [scan_escape, List.append_nil]

/-- Escaped words with gaps between them are split into these words. -/
theorem split_spaced (items : List (List Char × String)) (trailing : List Char)
    (hitems : ∀ item ∈ items, item.1.all isBlank = true ∧ item.2 ≠ "")
    (hgaps : ∀ item ∈ items.tail, item.1 ≠ []) (htrailing : trailing.all isBlank = true) :
    split (String.ofList (spaced items ++ trailing)) = items.map (·.2) := by
  have hread := words_scan_spaced hitems htrailing (s := {}) ⟨rfl, rfl⟩ (.inl ⟨rfl, hgaps⟩)
  rw [split, String.toList_ofList, hread]
  rfl

/-- A text that is cut at a blank outside of quotes gives the words of its parts. The lists that a
text may be read as are those without an empty word, and one that is read as a given list has a
backslash before each character of the words and blanks between them. -/
theorem split_composes :
    (∀ (a b : String) (w : Char), isBlank w = true → (scan {} a.toList).AtRest →
      split (a ++ String.singleton w ++ b) = split a ++ split b) ∧
    (∀ words : List String, (∃ text, split text = words) ↔ ∀ word ∈ words, word ≠ "") ∧
    (∀ (items : List (List Char × String)) (trailing : List Char),
      (∀ item ∈ items, item.1.all isBlank = true ∧ item.2 ≠ "") →
      (∀ item ∈ items.tail, item.1 ≠ []) → trailing.all isBlank = true →
      split (String.ofList (spaced items ++ trailing)) = items.map (·.2)) := by
  refine ⟨?_, ?_, split_spaced⟩
  · intro a b w hw ha
    have hcut : (a ++ String.singleton w ++ b).toList = a.toList ++ (w :: b.toList) := by
      simp
    rw [split, hcut, scan_append, scan, List.foldl_cons, ha.step_blank hw]
    exact words_scan_endWord ha b.toList
  · intro words
    constructor
    · rintro ⟨text, rfl⟩ word hword
      have hdone := ne_empty_of_mem_done (s := {}) (by simp) text.toList
      exact ne_empty_of_mem_endWord hdone word (List.mem_reverse.mp hword)
    · intro hwords
      have hread := split_spaced (words.map ([' '], ·)) []
      rw [List.map_map] at hread
      refine ⟨_, (hread ?_ ?_ rfl).trans words.map_id⟩
      · simpa [isBlank] using hwords
      · intro item hitem
        obtain ⟨word, -, rfl⟩ := List.mem_map.mp (List.mem_of_mem_tail hitem)
        exact List.cons_ne_nil _ _

/-- A text that is cut behind a quoted part, and words of blanks, quotes and a backslash. -/
theorem split_composes_mixed :
    isBlank '\u2003' = true ∧ (scan {} "-D'a b'".toList).AtRest ∧
      split ("-D'a b'" ++ String.singleton '\u2003' ++ "\"c\"\\ d") =
        split "-D'a b'" ++ split "\"c\"\\ d" ∧
      (∃ text, split text = ["a b", "it's \"\\\""]) ∧
      split (String.ofList (spaced [([], "a b"), (['\t', ' '], "'\"\\")] ++ ['\n'])) =
        ["a b", "'\"\\"] := by
  obtain ⟨hcut, hlists, hspaced⟩ := split_composes
  have hrest : (scan {} "-D'a b'".toList).AtRest := ⟨by decide, by decide⟩
  refine ⟨rfl, hrest, hcut "-D'a b'" "\"c\"\\ d" '\u2003' rfl hrest, (hlists _).mpr (by decide), ?_⟩
  exact hspaced [([], "a b"), (['\t', ' '], "'\"\\")] ['\n'] (by decide) (by decide) (by decide)

/-- With a quote open a blank separates nothing. -/
example : split ("'a" ++ String.singleton ' ' ++ "b'") = ["a b"] ∧
    split "'a" ++ split "b'" = ["a", "b"] := by decide +kernel

end CxxScript.Text.Words

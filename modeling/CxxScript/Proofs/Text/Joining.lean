import CxxScript.Proofs.Text.Splitting

/-!
# Words that are joined and read again

Joined words stand between quotes wherever they hold more than safe characters. The reader follows
the quotes, so it finds the words again, but for the empty ones, which are no words to it:
`words_scan_join`. Only a backslash is not safe between quotes. The reader takes one of two
backslashes at most, `scan_backslashes`, whatever stands between them, so a backslash that has been
joined is lost for good and the words are found again just when there is none: `split_join_iff`.
-/

set_option autoImplicit false

namespace CxxScript.Text.Words

/-- A safe character takes nothing, opens no quote and separates no words. -/
theorem plain_of_isSafe {c : Char} (h : isSafe c = true) :
    c ≠ '\\' ∧ c ≠ '\'' ∧ c ≠ '"' ∧ isBlank c = false := by
  have hmarks : "_-+=/.,:@%^".toList.all (fun d =>
      d ≠ '\\' ∧ d ≠ '\'' ∧ d ≠ '"' ∧ isBlank d = false) = true := by decide
  rw [isSafe, Bool.or_eq_true] at h
  rcases h with halphanum | hmark
  · refine ⟨?_, ?_, ?_, ?_⟩
    · rintro rfl; cases halphanum
    · rintro rfl; cases halphanum
    · rintro rfl; cases halphanum
    · have hrange : 48 ≤ c.toNat ∧ c.toNat ≤ 122 := by
        delta Char.isAlphanum Char.isAlpha Char.isUpper Char.isLower Char.isDigit at halphanum
        simp [UInt32.le_iff_toNat_le] at halphanum
        omega
      simp [isBlank]
      omega
  · exact of_decide_eq_true (List.all_eq_true.mp hmarks c (List.contains_iff_mem.mp hmark))

/-- A word as it is quoted: bare, or between single quotes. -/
theorem toList_quote (word : String) :
    (word.toList ≠ [] ∧ word.toList.all isSafe = true ∧ (quote word).toList = word.toList) ∨
      (quote word).toList = '\'' :: (word.toList.flatMap quoteChar ++ ['\'']) := by
  unfold quote
  split
  · next hbare =>
    simp only [Bool.and_eq_true, Bool.not_eq_true', String.isEmpty_eq_false_iff] at hbare
    exact .inl ⟨by simpa using hbare.1, hbare.2, rfl⟩
  · exact .inr (by simp)

/-- One word is joined to its quotation alone. -/
theorem toList_join_singleton (word : String) : (join [word]).toList = (quote word).toList := by
  simp [join]

/-- There is a space behind each word but the last one. -/
theorem toList_join_cons (word next : String) (rest : List String) :
    (join (word :: next :: rest)).toList =
      (quote word).toList ++ ' ' :: (join (next :: rest)).toList := by
  simp [join]

/-! ## Words without backslashes -/

/-- Safe characters are taken as they stand. -/
theorem scan_safe (done : List String) (current text : List Char)
    (hsafe : text.all isSafe = true) :
    scan { done, current } text = { done, current := text.reverse ++ current } :=
  scan_plain done current text fun c hc => plain_of_isSafe (List.all_eq_true.mp hsafe c hc)

/-- Between single quotes every character but a backslash is read as it was written. -/
theorem scan_quoteChars (done : List String) (current text : List Char) (hslash : '\\' ∉ text) :
    scan { done, current, quote := some '\'' } (text.flatMap quoteChar) =
      { done, current := text.reverse ++ current, quote := some '\'' } := by
  induction text generalizing current with
  | nil => rfl
  | cons c rest ih =>
    obtain ⟨hc, hrest⟩ := not_or.mp (mt List.mem_cons.mpr hslash)
    have hchar : scan { done, current, quote := some '\'' } (quoteChar c) =
        { done, current := c :: current, quote := some '\'' } := by
      by_cases hquote : c = '\''
      · subst hquote
        rfl
      · simp [quoteChar, hquote, scan, State.step, State.take, Ne.symm hc]
    rw [List.flatMap_cons, scan_append, hchar, ih (c :: current) hrest]
    simp

/-- A quoted word without backslashes is read as the word at hand. -/
theorem scan_quote (done : List String) {word : String} (hslash : '\\' ∉ word.toList) :
    scan { done } (quote word).toList = { done, current := word.toList.reverse } := by
  rcases toList_quote word with ⟨-, hsafe, hbare⟩ | hquoted
  · rw [hbare, scan_safe done [] _ hsafe, List.append_nil]
  · have hopen : scan { done } ['\''] = { done, quote := some '\'' } := rfl
    have hclose : ∀ current, scan { done, current, quote := some '\'' } ['\''] =
        { done, current } := fun _ => rfl
    rw [hquoted, ← List.singleton_append, scan_append, hopen, scan_append,
      scan_quoteChars done [] _ hslash, hclose, List.append_nil]

/-- The word that has been read of a quotation ends as the quoted word, unless it is empty. -/
theorem endWord_quote (done : List String) (word : String) :
    ({ done, current := word.toList.reverse } : State).endWord =
      { done := ([word].filter fun w => !w.isEmpty) ++ done } := by
  by_cases hempty : word = ""
  · subst hempty
    rfl
  · simp [State.endWord, hempty]

/-- Joined words without backslashes are read again, but for the empty ones. -/
theorem words_scan_join (done words : List String) (hslash : ∀ w ∈ words, '\\' ∉ w.toList) :
    (scan { done } (join words).toList).words =
      done.reverse ++ words.filter fun w => !w.isEmpty := by
  induction words generalizing done with
  | nil => simp [join, scan, State.words, State.endWord]
  | cons word rest ih =>
    have hword := scan_quote done (hslash word List.mem_cons_self)
    have hreverse : ([word].filter fun w => !w.isEmpty).reverse =
        [word].filter fun w => !w.isEmpty := by
      by_cases hempty : word = "" <;> simp [hempty]
    cases rest with
    | nil =>
      rw [toList_join_singleton, hword, State.words, endWord_quote, List.reverse_append, hreverse]
    | cons next rest =>
      have hspace : scan { done, current := word.toList.reverse } [' '] =
          { done := ([word].filter fun w => !w.isEmpty) ++ done } := endWord_quote done word
      rw [toList_join_cons, scan_append, hword, ← List.singleton_append, scan_append, hspace,
        ih _ fun w hw => hslash w (List.mem_cons_of_mem word hw), List.reverse_append, hreverse,
        List.append_assoc, ← List.filter_append, List.singleton_append]

/-! ## Backslashes -/

/-- How many backslashes some words hold. -/
def backslashes (words : List String) : Nat := (words.flatMap String.toList).count '\\'

/-- How many backslashes the reader has taken. -/
def State.backslashes (s : State) : Nat := Words.backslashes s.done + s.current.count '\\'

/-- Ending a word takes no backslash and loses none. -/
theorem State.backslashes_endWord (s : State) : s.endWord.backslashes = s.backslashes := by
  unfold endWord
  split
  · rfl
  · simp [backslashes, Words.backslashes]
    omega

/-- The words that are given hold the backslashes that have been taken. -/
theorem backslashes_words (s : State) : backslashes s.words = s.backslashes := by
  have hreverse : ∀ words, backslashes words.reverse = backslashes words := by
    intro words
    exact ((List.reverse_perm words).flatMap_right String.toList).count_eq '\\'
  rw [State.words, hreverse, ← s.backslashes_endWord, State.backslashes, s.current_endWord]
  rfl

/-- For each backslash that the reader takes it has passed over another one. -/
theorem State.step_backslashes (s : State) (c : Char) :
    2 * (s.step c).backslashes + (s.step c).escaped.toNat ≤
      2 * s.backslashes + s.escaped.toNat + [c].count '\\' := by
  have htake : ∀ s : State, (s.take c).backslashes = s.backslashes + [c].count '\\' := by
    intro s
    simp [take, backslashes, List.count_cons, Nat.add_assoc]
  by_cases hescaped : s.escaped = true
  · -- The backslash in front was passed over, so this character may be one.
    have hstep : s.step c = ({ s with escaped := false } : State).take c := by
      simp [step, hescaped]
    have hone : [c].count '\\' ≤ 1 := List.count_le_length
    have hsame : ({ s with escaped := false } : State).backslashes = s.backslashes := rfl
    rw [hstep, htake, hsame, hescaped]
    simp only [take, Bool.toNat_false, Bool.toNat_true]
    omega
  · rw [Bool.not_eq_true] at hescaped
    by_cases hslash : c = '\\'
    · subst hslash
      simp [step, hescaped, backslashes]
    · have hnone : [c].count '\\' = 0 := by simp [hslash]
      have hkept : (s.step c).backslashes = s.backslashes ∧ (s.step c).escaped = false := by
        have hend := s.backslashes_endWord
        have htaken := htake s
        simp only [step, hescaped, hslash, beq_iff_eq, Bool.false_eq_true, if_false]
        split
        · split
          · exact ⟨rfl, rfl⟩
          · exact ⟨by rw [htaken, hnone, Nat.add_zero], hescaped⟩
        · split
          · exact ⟨rfl, rfl⟩
          · split
            · refine ⟨hend, ?_⟩
              unfold endWord
              split <;> exact hescaped
            · exact ⟨by rw [htaken, hnone, Nat.add_zero], hescaped⟩
      rw [hkept.1, hkept.2, hescaped, hnone]
      simp

/-- The reader takes one of two backslashes at most. -/
theorem scan_backslashes (s : State) (text : List Char) :
    2 * (scan s text).backslashes ≤
      2 * s.backslashes + s.escaped.toNat + text.count '\\' := by
  induction text generalizing s with
  | nil => simp [scan]
  | cons c rest ih =>
    have hstep := s.step_backslashes c
    have hrest := ih (s.step c)
    have hcount : (c :: rest).count '\\' = [c].count '\\' + rest.count '\\' := by
      rw [← List.count_append, List.singleton_append]
    have hscan : scan s (c :: rest) = scan (s.step c) rest := rfl
    rw [hscan, hcount]
    omega

/-- Quoting a word adds no backslash. -/
theorem count_quote (word : String) :
    (quote word).toList.count '\\' = word.toList.count '\\' := by
  have hchar : ∀ c, (quoteChar c).count '\\' = [c].count '\\' := by
    intro c
    by_cases hquote : c = '\''
    · subst hquote
      decide
    · simp [quoteChar, hquote]
  have hchars : ∀ text : List Char, (text.flatMap quoteChar).count '\\' = text.count '\\' := by
    intro text
    induction text with
    | nil => rfl
    | cons c rest ih =>
      rw [List.flatMap_cons, List.count_append, hchar, ih, ← List.count_append,
        List.singleton_append]
  rcases toList_quote word with ⟨-, -, hbare⟩ | hquoted
  · rw [hbare]
  · simp [hquoted, hchars]

/-- Joining and quoting words adds no backslash. -/
theorem count_join (words : List String) :
    (join words).toList.count '\\' = backslashes words := by
  induction words with
  | nil => rfl
  | cons word rest ih =>
    cases rest with
    | nil => simp [toList_join_singleton, count_quote, backslashes]
    | cons next rest =>
      rw [toList_join_cons, List.count_append, count_quote, List.count_cons_of_ne (by decide), ih,
        backslashes, backslashes, List.flatMap_cons, ← List.count_append]
      rfl

/-- There is no backslash in the empty words. -/
theorem backslashes_filter (words : List String) :
    backslashes (words.filter fun w => !w.isEmpty) = backslashes words := by
  induction words with
  | nil => rfl
  | cons word rest ih =>
    by_cases hempty : word = ""
    · subst hempty
      simpa [backslashes] using ih
    · simpa [backslashes, hempty] using ih

/-- Joined words are read again, but for the empty ones, just when none of them holds a
backslash. -/
theorem split_join_iff (words : List String) :
    split (join words) = (words.filter fun w => !w.isEmpty) ↔ ∀ w ∈ words, '\\' ∉ w.toList := by
  constructor
  · intro hread w hw hslash
    have htwice := scan_backslashes {} (join words).toList
    have hnone : ({} : State).backslashes = 0 := rfl
    -- All of the backslashes were joined, and all have come back.
    have hback : (scan {} (join words).toList).backslashes = backslashes words := by
      rw [← backslashes_words, ← backslashes_filter words, ← hread]
      rfl
    have hsome : 0 < backslashes words :=
      List.count_pos_iff.mpr (List.mem_flatMap.mpr ⟨w, hw, hslash⟩)
    rw [count_join, hback, hnone] at htwice
    simp only [Bool.toNat_false] at htwice
    omega
  · exact words_scan_join [] words

/-- A backslash that has been joined takes the character behind it. -/
example : split (join ["a b", "", "c\\d"]) = ["a b", "cd"] := by decide +kernel

end CxxScript.Text.Words

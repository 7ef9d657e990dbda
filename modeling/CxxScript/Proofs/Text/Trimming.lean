import CxxScript.Text.Blank

/-!
# What is taken off the ends of a text

What is taken off the front of a text is the longest run of characters of a kind: what is left
begins with no such character, `dropWhile_eq_iff`, and the run is what was taken,
`takeWhile_eq_of_run`. So a text that has been trimmed at its end is told by what is left, which
ends in no blank, and by the blanks behind it, `trimEnd_eq_iff`, and a text that has been trimmed at
both ends by the blanks on both sides of it, `trim_eq_iff`.
-/

set_option autoImplicit false

namespace CxxScript.Text

section Runs

variable {α : Type} {p : α → Bool} {s run rest : List α}

/-- A text behind the longest run of characters of a kind. -/
theorem dropWhile_eq_iff : s.dropWhile p = rest ↔
    ∃ run, s = run ++ rest ∧ run.all p = true ∧ ∀ c, rest.head? = some c → p c = false := by
  constructor
  · rintro rfl
    refine ⟨s.takeWhile p, List.takeWhile_append_dropWhile.symm, List.all_takeWhile, ?_⟩
    intro c hc
    have hhead := List.head?_dropWhile_not p s
    rw [hc] at hhead
    simpa using hhead
  · rintro ⟨run, rfl, hrun, hrest⟩
    rw [List.dropWhile_append_of_pos (List.all_eq_true.mp hrun)]
    cases rest with
    | nil => rfl
    | cons c rest => exact List.dropWhile_cons_of_neg (by simp [hrest c rfl])

/-- The longest run of characters of a kind at the front of a text. -/
theorem takeWhile_eq_of_run (hrun : run.all p = true)
    (hrest : ∀ c, rest.head? = some c → p c = false) : (run ++ rest).takeWhile p = run := by
  have hdrop : (run ++ rest).dropWhile p = rest := dropWhile_eq_iff.mpr ⟨run, rfl, hrun, hrest⟩
  have hsplit := List.takeWhile_append_dropWhile (p := p) (l := run ++ rest)
  rw [hdrop] at hsplit
  exact List.append_cancel_right hsplit

/-- A run ends at the latest where no character of the kind stands. -/
theorem dropWhile_append_cons {c : α} (hc : p c = false) (s rest : List α) :
    (s ++ c :: rest).dropWhile p = s.dropWhile p ++ c :: rest := by
  induction s with
  | nil => exact List.dropWhile_cons_of_neg (by simp [hc])
  | cons a s ih =>
    rw [List.cons_append, List.dropWhile_cons, List.dropWhile_cons, ih]
    split <;> rfl

/-- An element of which the test does not hold ends what is taken, whatever follows. -/
theorem takeWhile_append_cons {c : α} (hc : p c = false) (s rest : List α) :
    (s ++ c :: rest).takeWhile p = s.takeWhile p := by
  induction s with
  | nil => exact List.takeWhile_cons_of_neg (by simp [hc])
  | cons a s ih => rw [List.cons_append, List.takeWhile_cons, List.takeWhile_cons, ih]

end Runs

/-- A text is trimmed to what stands before the blanks at its end. -/
theorem trimEnd_eq_iff {s body : List Char} : trimEnd s = body ↔
    ∃ trailing, s = body ++ trailing ∧ trailing.all isBlank = true ∧
      ∀ c, body.getLast? = some c → isBlank c = false := by
  rw [trimEnd, ← List.reverse_inj, List.reverse_reverse, dropWhile_eq_iff]
  constructor
  · rintro ⟨run, hs, hrun, hbody⟩
    refine ⟨run.reverse, ?_, by rw [List.all_reverse, hrun], fun c hc => hbody c ?_⟩
    · rw [← List.reverse_inj, hs, List.reverse_append, List.reverse_reverse]
    · rw [List.head?_reverse, hc]
  · rintro ⟨trailing, rfl, htrailing, hbody⟩
    refine ⟨trailing.reverse, List.reverse_append, by rw [List.all_reverse, htrailing], ?_⟩
    intro c hc
    rw [List.head?_reverse] at hc
    exact hbody c hc

/-- A text is trimmed to what stands between the blanks at its ends. -/
theorem trim_eq_iff {s body : List Char} : trim s = body ↔
    ∃ lead trailing, s = lead ++ body ++ trailing ∧
      lead.all isBlank = true ∧ trailing.all isBlank = true ∧
      (∀ c, body.head? = some c → isBlank c = false) ∧
      ∀ c, body.getLast? = some c → isBlank c = false := by
  rw [trim, trimEnd_eq_iff]
  constructor
  · rintro ⟨trailing, hstart, htrailing, hlast⟩
    obtain ⟨lead, hs, hlead, hhead⟩ := dropWhile_eq_iff.mp hstart
    refine ⟨lead, trailing, by rw [hs, List.append_assoc], hlead, htrailing, ?_, hlast⟩
    intro c hc
    apply hhead c
    rw [List.head?_append, hc, Option.some_or]
  · rintro ⟨lead, trailing, rfl, hlead, htrailing, hhead, hlast⟩
    cases body with
    | nil =>
      have hblank : (lead ++ [] ++ trailing).all isBlank = true := by
        rw [List.append_nil, List.all_append, hlead, htrailing, Bool.and_self]
      have hstart : trimStart (lead ++ [] ++ trailing) = [] :=
        dropWhile_eq_iff.mpr ⟨_, (List.append_nil _).symm, hblank, by simp⟩
      exact ⟨[], hstart, rfl, hlast⟩
    | cons c body =>
      have hstart : trimStart (lead ++ c :: body ++ trailing) = c :: body ++ trailing :=
        dropWhile_eq_iff.mpr ⟨lead, List.append_assoc .., hlead, hhead⟩
      exact ⟨trailing, hstart, htrailing, hlast⟩

end CxxScript.Text

import CxxScript.Build.Config

/-!
# Runs of flags, one after the other

A run that is pushed is in the list from then on, since flags are only added at the end: so the
flags that were there stay in front, `prefix_pushAll`, and a run that was pushed before is never
added again, `pushAll_pushed`. What a list has grown by are the runs that were added, in order,
however they overlap with one another: `pushAll_collects`.
-/

set_option autoImplicit false

namespace CxxScript.Flags

/-- The list stays in front. -/
theorem prefix_pushUnique (list run : List String) : list <+: (pushUnique list run).1 := by
  unfold pushUnique
  split
  · exact List.prefix_rfl
  · exact List.prefix_append list run

/-- The run is in the list then. -/
theorem infix_pushUnique (list run : List String) : run <:+: (pushUnique list run).1 := by
  unfold pushUnique
  split
  · next hthere =>
    rw [Bool.or_eq_true] at hthere
    rcases hthere with hempty | hrun
    · rw [List.isEmpty_iff.mp hempty]
      exact List.nil_infix
    · exact hasRun_iff.mp hrun
  · exact (List.suffix_append list run).isInfix

/-- What is in the list then was there or is in the run. -/
theorem mem_pushUnique {list run : List String} {flag : String} :
    flag ∈ (pushUnique list run).1 ↔ flag ∈ list ∨ flag ∈ run := by
  constructor
  · intro hflag
    unfold pushUnique at hflag
    split at hflag
    · exact .inl hflag
    · exact List.mem_append.mp hflag
  · rintro (hlist | hrun)
    · exact (prefix_pushUnique list run).subset hlist
    · exact (infix_pushUnique list run).subset hrun

/-- Push runs of flags, one after the other. -/
def pushAll (list : List String) (runs : List (List String)) : List String :=
  runs.foldl (fun list run => (pushUnique list run).1) list

/-- To push more runs is to push them behind the first ones. -/
theorem pushAll_append (list : List String) (runs more : List (List String)) :
    pushAll list (runs ++ more) = pushAll (pushAll list runs) more := by
  rw [pushAll, List.foldl_append]
  rfl

/-- The flags that there were stay in front. -/
theorem prefix_pushAll (list : List String) (runs : List (List String)) :
    list <+: pushAll list runs := by
  induction runs generalizing list with
  | nil => exact List.prefix_rfl
  | cons run rest ih => exact (prefix_pushUnique list run).trans (ih _)

/-- A run that has been pushed is together among the flags. -/
theorem infix_pushAll {list run : List String} {runs : List (List String)} (hrun : run ∈ runs) :
    run <:+: pushAll list runs := by
  obtain ⟨before, behind, rfl⟩ := List.append_of_mem hrun
  rw [pushAll_append]
  exact (infix_pushUnique (pushAll list before) run).trans (prefix_pushAll _ behind).isInfix

/-- To push a run that is there already changes nothing. -/
theorem pushUnique_of_infix {list run : List String} (h : run <:+: list) :
    (pushUnique list run).1 = list := by
  rw [pushUnique, hasRun_iff.mpr h, Bool.or_true, if_pos rfl]

/-- Runs that are in the list are not added to it. -/
theorem pushAll_of_infix {list : List String} {runs : List (List String)}
    (h : ∀ run ∈ runs, run <:+: list) : pushAll list runs = list := by
  induction runs with
  | nil => rfl
  | cons run rest ih =>
    obtain ⟨hrun, hrest⟩ := List.forall_mem_cons.mp h
    rw [pushAll, List.foldl_cons, pushUnique_of_infix hrun]
    exact ih hrest

/-- Runs that were pushed before may be pushed again, whatever has been added behind them. -/
theorem pushAll_pushed {list grown : List String} {runs : List (List String)}
    (h : pushAll list runs <+: grown) : pushAll grown runs = grown :=
  pushAll_of_infix fun _ hrun => (infix_pushAll hrun).trans h.isInfix

/-- Pushing some first runs and then all of them comes to pushing all of them. -/
theorem pushAll_again (list : List String) {runs all : List (List String)} (h : runs <+: all) :
    pushAll (pushAll list runs) all = pushAll list all := by
  obtain ⟨more, rfl⟩ := h
  rw [pushAll_append, pushAll_pushed List.prefix_rfl, ← pushAll_append]

/-! ## What pushing answers -/

/-- A run is added when it is not empty and not there already. -/
theorem pushUnique_snd_iff {list run : List String} :
    (pushUnique list run).2 = true ↔ run ≠ [] ∧ ¬ run <:+: list := by
  unfold pushUnique
  split
  · next hthere =>
    rw [Bool.or_eq_true, List.isEmpty_iff, hasRun_iff] at hthere
    constructor
    · intro hfalse
      cases hfalse
    · rintro ⟨hsome, hnew⟩
      exact absurd (hthere.resolve_left hsome) hnew
  · next hnew => simpa [hasRun_iff] using hnew

/-- A list grows by a run just when the answer is that it was added. -/
theorem pushUnique_fst (list run : List String) :
    (pushUnique list run).1 = list ++ if (pushUnique list run).2 then run else [] := by
  unfold pushUnique
  split <;> simp

/-- The answers to runs that are pushed one after the other: whether each was added. -/
def answers (list : List String) : List (List String) → List Bool
  | [] => []
  | run :: rest => (pushUnique list run).2 :: answers (pushUnique list run).1 rest

/-- The runs that were added. -/
def accepted (list : List String) (runs : List (List String)) : List (List String) :=
  ((runs.zip (answers list runs)).filter (·.2)).map (·.1)

/-- There is one answer for each run. -/
theorem length_answers (list : List String) (runs : List (List String)) :
    (answers list runs).length = runs.length := by
  induction runs generalizing list with
  | nil => rfl
  | cons run rest ih => simp [answers, ih]

/-- Each run is answered by the list that it was pushed on. -/
theorem getElem?_answers (list : List String) {runs : List (List String)} {i : Nat}
    (hi : i < runs.length) :
    (answers list runs)[i]? = some (pushUnique (pushAll list (runs.take i)) runs[i]).2 := by
  induction runs generalizing list i with
  | nil => cases hi
  | cons run rest ih =>
    cases i with
    | zero => rfl
    | succ i =>
      rw [List.length_cons, Nat.succ_lt_succ_iff] at hi
      exact ih (pushUnique list run).1 hi

/-- A list has grown by the runs that were added. -/
theorem pushAll_eq_append (list : List String) (runs : List (List String)) :
    pushAll list runs = list ++ (accepted list runs).flatten := by
  induction runs generalizing list with
  | nil => simp [pushAll, accepted]
  | cons run rest ih =>
    have hrest := ih (pushUnique list run).1
    rw [pushUnique_fst] at hrest
    rw [pushAll, List.foldl_cons, pushUnique_fst]
    refine hrest.trans ?_
    cases hanswer : (pushUnique list run).2 with
    | true => simp [accepted, answers, hanswer, pushUnique_fst list run]
    | false => simp [accepted, answers, hanswer, pushUnique_fst list run]

/-- None of some runs is added that are all there already. -/
theorem answers_of_infix {list : List String} {runs : List (List String)}
    (h : ∀ run ∈ runs, run <:+: list) : answers list runs = List.replicate runs.length false := by
  induction runs with
  | nil => rfl
  | cons run rest ih =>
    obtain ⟨hrun, hrest⟩ := List.forall_mem_cons.mp h
    have hanswer : (pushUnique list run).2 = false := by
      rw [← Bool.not_eq_true, pushUnique_snd_iff]
      exact fun hnew => hnew.2 hrun
    rw [answers, pushUnique_of_infix hrun, ih hrest, hanswer]
    rfl

/-- Runs that are pushed one after the other are in the list from then on: it begins with the flags
that were there and goes on with the runs that were added, in order. A run is added when it is not
empty and stands nowhere in the list at that moment, so none of them is ever added again. -/
theorem pushAll_collects (list : List String) (runs : List (List String)) :
    list <+: pushAll list runs ∧
    pushAll list runs = list ++ (accepted list runs).flatten ∧
    (∀ run ∈ runs, run ≠ [] → run <:+: pushAll list runs) ∧
    (answers list runs).length = runs.length ∧
    (∀ (i : Nat) (hi : i < runs.length), (answers list runs)[i]? = some true ↔
      runs[i] ≠ [] ∧ ¬ runs[i] <:+: pushAll list (runs.take i)) ∧
    (∀ again : List (List String), (∀ run ∈ again, run ∈ runs) →
      pushAll (pushAll list runs) again = pushAll list runs ∧
        answers (pushAll list runs) again = List.replicate again.length false) := by
  refine ⟨prefix_pushAll list runs, pushAll_eq_append list runs,
    fun run hrun _ => infix_pushAll hrun, length_answers list runs, ?_, ?_⟩
  · intro i hi
    rw [getElem?_answers list hi, Option.some_inj, pushUnique_snd_iff]
  · intro again hagain
    have hthere : ∀ run ∈ again, run <:+: pushAll list runs := by
      intro run hrun
      exact infix_pushAll (hagain run hrun)
    have hsame := pushAll_of_infix hthere
    exact ⟨hsame, answers_of_infix hthere⟩

/-- Behind `-la` the third run is not added, as it stands across the end of the flag and the first
run; the last one is, which goes on where the first one ends. -/
def crossing : List (List String) := [["-lb", "-la"], [], ["-la", "-lb"], ["-la", "-la"]]

/-- Two of these runs are added, and none of them when they are pushed again from the last one on.
-/
theorem pushAll_collects_crossing :
    pushAll ["-la"] crossing = ["-la", "-lb", "-la", "-la", "-la"] ∧
      pushAll (pushAll ["-la"] crossing) crossing.reverse = pushAll ["-la"] crossing ∧
      answers (pushAll ["-la"] crossing) crossing.reverse = [false, false, false, false] := by
  obtain ⟨-, hgrown, -, -, -, hagain⟩ := pushAll_collects ["-la"] crossing
  exact ⟨hgrown.trans (by decide), hagain crossing.reverse fun run hrun => List.mem_reverse.mp hrun⟩

end CxxScript.Flags

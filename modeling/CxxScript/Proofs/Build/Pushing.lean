import CxxScript.Build.Toolset
import CxxScript.Proofs.Flags
import CxxScript.Proofs.Host.Leads

/-!
# What pushed flags do to a toolset

Pushing flags is a step of a host only because a compiler that is asked for in vain is written down.
`Toolset.pushed` is the toolset it gives, whatever the host.
-/

set_option autoImplicit false

namespace CxxScript

open Host

namespace Toolset

/-- A flag asks for a compiler when it is the pseudo-flag with the compiler behind it. -/
theorem askedBy?_eq_some_iff {flag compiler : String} :
    askedBy? flag = some compiler ↔ flag = compilerFlag ++ compiler := by
  rw [← String.toList_inj, String.toList_append]
  unfold askedBy?
  constructor
  · intro hasked
    split at hasked
    · next hprefix =>
      cases hasked
      obtain ⟨rest, hrest⟩ := List.isPrefixOf_iff_prefix.mp hprefix
      rw [String.toList_ofList, ← hrest, ← String.length_toList, List.drop_left]
    · cases hasked
  · intro hflag
    have hprefix : compilerFlag.toList.isPrefixOf flag.toList = true :=
      List.isPrefixOf_iff_prefix.mpr ⟨compiler.toList, hflag.symm⟩
    rw [if_pos hprefix, hflag, ← String.length_toList, List.drop_left, String.ofList_toList]

/-- The toolset after a compiler was asked for. -/
def asking (ts : Toolset) (compiler : String) : Toolset :=
  if ts.config.cxx.isSome || ts.chosen?.isSome then ts else { ts with asked? := some compiler }

/-- The toolset after a run of flags was pushed. -/
def pushed (ts : Toolset) (run : List String) (position : FlagPosition) : Toolset :=
  ((run.filterMap askedBy?).foldl asking ts).insertRun (realFlags run) position

/-- Whether an event tells that a compiler that is asked for is not taken. -/
def IsRefusal (e : Event) : Prop :=
  ∃ compiler, e = .note (.overrideIgnored compiler) ∨ e = .warning (.overrideTooLate compiler)

/-- Asking for a compiler. -/
theorem ask_outcome (ts : Toolset) (compiler : String) (h : Host) :
    Leads (ts.ask compiler) h fun ts' h' =>
      ts' = ts.asking compiler ∧ h'.files = h.files ∧ Wrote IsRefusal h h' := by
  unfold ask asking
  by_cases hcxx : ts.config.cxx.isSome = true
  · rw [if_pos hcxx, hcxx, Bool.true_or, if_pos rfl]
    exact ⟨rfl, rfl, .single rfl ⟨compiler, .inl rfl⟩⟩
  · rw [if_neg hcxx]
    rw [Bool.not_eq_true] at hcxx
    rw [hcxx, Bool.false_or]
    by_cases hchosen : ts.chosen?.isSome = true
    · rw [if_pos hchosen, if_pos hchosen]
      exact ⟨rfl, rfl, .single rfl ⟨compiler, .inr rfl⟩⟩
    · rw [if_neg hchosen, if_neg hchosen]
      exact ⟨rfl, rfl, .of_eq rfl⟩

/-- Pushing one flag. -/
theorem pushFlag_outcome (ts : Toolset) (flag : String) (position : FlagPosition) (h : Host) :
    Leads (ts.pushFlag flag position) h fun ts' h' =>
      (askedBy? flag = none → ts' = ts.insert flag position) ∧
      (∀ compiler, askedBy? flag = some compiler → ts' = ts.asking compiler) ∧
      h'.files = h.files ∧ Wrote IsRefusal h h' := by
  unfold pushFlag
  cases hasked : askedBy? flag with
  | none => exact ⟨fun _ => rfl, fun compiler hsome => (by cases hsome), rfl, .of_eq rfl⟩
  | some asked =>
    refine (ask_outcome ts asked h).mono fun ts' h' hts' => ⟨fun hnone => (by cases hnone), ?_⟩
    obtain ⟨rfl, hhost⟩ := hts'
    refine ⟨fun compiler hsome => ?_, hhost⟩
    cases hsome
    rfl

/-- Asking for compilers, one after the other. -/
theorem foldlM_ask_outcome (asked : List String) (ts : Toolset) (h : Host) :
    Leads (asked.foldlM ask ts) h fun ts' h' =>
      ts' = asked.foldl asking ts ∧ h'.files = h.files ∧ Wrote IsRefusal h h' := by
  induction asked generalizing ts h with
  | nil => exact ⟨rfl, rfl, .of_eq rfl⟩
  | cons compiler rest ih =>
    rw [List.foldlM_cons, List.foldl_cons]
    refine Leads.bind (ask_outcome ts compiler h) fun ts₁ h₁ hfirst => ?_
    obtain ⟨rfl, hfiles₁, hwrote₁⟩ := hfirst
    refine (ih (ts.asking compiler) h₁).mono fun ts₂ h₂ hrest => ?_
    obtain ⟨hts₂, hfiles₂, hwrote₂⟩ := hrest
    exact ⟨hts₂, hfiles₂.trans hfiles₁, hwrote₁.trans hwrote₂⟩

/-- Pushing flags. -/
theorem pushFlags_outcome (ts : Toolset) (run : List String) (position : FlagPosition) (h : Host) :
    Leads (ts.pushFlags run position) h fun ts' h' =>
      ts' = ts.pushed run position ∧ h'.files = h.files ∧ Wrote IsRefusal h h' := by
  unfold pushFlags
  refine Leads.bind (foldlM_ask_outcome _ ts h) fun ts₁ h₁ hasked => ?_
  obtain ⟨rfl, hhost⟩ := hasked
  exact ⟨rfl, hhost⟩

/-- What asking for compilers leaves to a toolset: all but the compiler that is asked for. -/
theorem foldl_asking (asked : List String) (ts : Toolset) :
    asked.foldl asking ts = { ts with asked? := (asked.foldl asking ts).asked? } := by
  induction asked generalizing ts with
  | nil => rfl
  | cons compiler rest ih =>
    rw [List.foldl_cons, ih]
    unfold asking
    split <;> rfl

/-- What pushing flags at the end of the shared ones leaves to a toolset. -/
theorem pushed_normal (ts : Toolset) (run : List String) : ts.pushed run .normal =
    { ts with
      asked? := (ts.pushed run .normal).asked?
      flags := (Flags.pushUnique ts.flags (realFlags run)).1 } := by
  have hasked := foldl_asking (run.filterMap askedBy?) ts
  unfold pushed insertRun
  rw [hasked]

end Toolset

end CxxScript

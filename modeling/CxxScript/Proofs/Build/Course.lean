import CxxScript.Proofs.Build.Termination

/-!
# The one course of a collection

From a state there is one step at most, `Step.unique`, so a collection has one course. The visits it
makes, `State.Makes`, are those that stand in the list when it has come to an end,
`State.Makes.mem`, and whatever was a file in the beginning is still there in each of them,
`State.Makes.grows`.
-/

set_option autoImplicit false

namespace CxxScript.Discovery

open Host

variable {m : Machine} {cfg : Config}

/-- Runs of steps follow one another. -/
theorem Steps.trans {n k : Nat} {a b c : State} {vs vs' : List Visit} (h : Steps m cfg n a vs b)
    (h' : Steps m cfg k b vs' c) : Steps m cfg (n + k) a (vs ++ vs') c := by
  induction h with
  | refl s =>
    rw [Nat.zero_add]
    exact h'
  | @head n a b _ vs vs₁ hstep _ ih =>
    rw [List.append_assoc, Nat.add_right_comm]
    exact .head hstep (ih h')

/-- A collection comes from one state to another. -/
def State.Reaches (m : Machine) (cfg : Config) (s s' : State) : Prop :=
  ∃ n vs, Steps m cfg n s vs s'

/-- What is reached goes on by a step. -/
theorem State.Reaches.step {s a b : State} {vs : List Visit} (h : s.Reaches m cfg a)
    (hstep : Step m cfg a vs b) : s.Reaches m cfg b := by
  obtain ⟨n, vs', hsteps⟩ := h
  exact ⟨_, _, hsteps.trans (.head hstep (.refl b))⟩

/-- A collection makes a visit. -/
def State.Makes (m : Machine) (cfg : Config) (s : State) (v : Visit) : Prop :=
  ∃ done todo ts, s.Reaches m cfg ⟨done, v.unit :: todo, ts, v.start⟩ ∧
    v.unit.scanned = false ∧ v.Runs m cfg

/-- A unit has one visit from a host. -/
theorem Visit.Runs.unique {v v' : Visit} (hv : v.Runs m cfg) (hv' : v'.Runs m cfg)
    (hunit : v'.unit = v.unit) (hstart : v'.start = v.start) : v' = v := by
  obtain ⟨u, h, outcome, result, final⟩ := v
  obtain ⟨u', h', outcome', result', final'⟩ := v'
  obtain rfl : u' = u := hunit
  obtain rfl : h' = h := hstart
  cases Eq.trans (Eq.symm hv') hv
  rfl

/-- There is one step from a state. -/
theorem Step.unique {a b b' : State} {vs vs' : List Visit} (h : Step m cfg a vs b)
    (h' : Step m cfg a vs' b') : vs' = vs ∧ b' = b := by
  generalize ha : a = c at h'
  cases h with
  | pass hu =>
    cases h' with
    | pass hu' =>
      cases ha
      exact ⟨rfl, rfl⟩
    | visit hu' =>
      cases ha
      rw [hu] at hu'
      cases hu'
  | @visit done todo joined ts ts' h v hu hv ho htake =>
    cases h' with
    | pass hu' =>
      cases ha
      rw [hu] at hu'
      cases hu'
    | @visit done' todo' joined' ts₁ ts₁' h' v' hu' hv' ho' htake' =>
      obtain ⟨hdone, htodo, hts, hstart⟩ := State.mk.inj ha
      obtain ⟨hunit, hrest⟩ := List.cons.inj htodo
      obtain rfl : v' = v := hv.unique hv' hunit.symm hstart.symm
      subst hdone
      subst hrest
      subst hts
      cases htake.symm.trans htake'
      exact ⟨rfl, rfl⟩

/-- The step from where a unit has to be scanned is the visit of the unit, and goes well. -/
theorem Step.makes {a b : State} {vs : List Visit} (h : Step m cfg a vs b) {v : Visit}
    {done todo : List CompilationUnit} {ts : Toolset}
    (ha : a = ⟨done, v.unit :: todo, ts, v.start⟩) (hu : v.unit.scanned = false)
    (hv : v.Runs m cfg) : vs = [v] ∧ v.outcome.isOk = true := by
  cases h with
  | pass hu' =>
    cases ha
    rw [hu] at hu'
    cases hu'
  | @visit done' todo' joined ts₁ ts' h v' _ hv' ho' _ =>
    obtain ⟨-, htodo, -, hstart⟩ := State.mk.inj ha
    obtain rfl : v' = v := hv.unique hv' (List.cons.inj htodo).1 hstart
    exact ⟨rfl, ho'⟩

/-- A collection that ends goes by the step there is. -/
theorem Ends.tail {a b : State} {vs ws : List Visit}
    {r : Except Failure Unit × List CompilationUnit × Toolset} {k : Host}
    (he : Ends m cfg a vs r k) (hstep : Step m cfg a ws b) :
    ∃ rest, vs = ws ++ rest ∧ Ends m cfg b rest r k := by
  cases he with
  | finished hsteps =>
    cases hsteps with
    | refl => cases hstep
    | head hfirst hrest =>
      obtain ⟨rfl, rfl⟩ := hstep.unique hfirst
      exact ⟨_, rfl, .finished hrest⟩
  | failed hsteps hu hv ho =>
    cases hsteps with
    | refl =>
      have hok := (hstep.makes rfl hu hv).2
      rw [ho] at hok
      cases hok
    | head hfirst hrest =>
      obtain ⟨rfl, rfl⟩ := hstep.unique hfirst
      exact ⟨_, List.append_assoc _ _ _, .failed hrest hu hv ho⟩

/-- What a collection makes is a visit. -/
theorem State.Makes.runs {s : State} {v : Visit} (h : s.Makes m cfg v) : v.Runs m cfg := by
  obtain ⟨_, _, _, _, _, hruns⟩ := h
  exact hruns

/-- Until a collection makes a visit it goes by the steps there are, and the files grow. -/
theorem State.Makes.grows {s : State} {v : Visit} (h : s.Makes m cfg v)
    (hq : Package.KeepsFiles m cfg.pkgConfig) : s.host.files.Grows v.start.files := by
  obtain ⟨_, _, _, ⟨_, _, hsteps⟩, _⟩ := h
  exact (hsteps.growth hq).through

/-- A collection that ends has visited the unit that had to be scanned first. -/
theorem Ends.first {a : State} {vs : List Visit}
    {r : Except Failure Unit × List CompilationUnit × Toolset} {k : Host}
    (he : Ends m cfg a vs r k) {v : Visit} {done todo : List CompilationUnit} {ts : Toolset}
    (ha : a = ⟨done, v.unit :: todo, ts, v.start⟩) (hu : v.unit.scanned = false)
    (hv : v.Runs m cfg) : v ∈ vs := by
  cases he with
  | finished hsteps =>
    cases hsteps with
    | refl => cases ha
    | head hfirst _ =>
      rw [(hfirst.makes ha hu hv).1]
      exact List.mem_cons_self
  | @failed n vs done' todo' ts' v' e hsteps _ hv' _ =>
    cases hsteps with
    | refl =>
      obtain ⟨-, htodo, -, hstart⟩ := State.mk.inj ha
      obtain rfl : v' = v := hv.unique hv' (List.cons.inj htodo).1 hstart
      exact List.mem_cons_self
    | head hfirst _ =>
      rw [(hfirst.makes ha hu hv).1]
      exact List.mem_cons_self

/-- The visits that a collection makes are those it has made when it ends. -/
theorem State.Makes.mem {s : State} {v : Visit} (h : s.Makes m cfg v) {vs : List Visit}
    {r : Except Failure Unit × List CompilationUnit × Toolset} {k : Host}
    (he : Ends m cfg s vs r k) : v ∈ vs := by
  obtain ⟨done, todo, ts, ⟨n, ws, hsteps⟩, hu, hv⟩ := h
  generalize hc : (⟨done, v.unit :: todo, ts, v.start⟩ : State) = c at hsteps
  induction hsteps generalizing vs with
  | refl s => exact he.first hc.symm hu hv
  | head hstep _ ih =>
    obtain ⟨rest, rfl, hrest⟩ := he.tail hstep
    exact List.mem_append_right _ (ih hrest hc)

end CxxScript.Discovery

import CxxScript.Proofs.Build.Collection

/-!
# What a run of steps has done

`Progress` tells what has been done between two states of a collection in terms of the visits on the
way: the units that were visited, and those that are still to be, are the ones that had to be
scanned at first followed by what the visits gave back, each file where it was first mentioned. It
holds of every run of steps, `Steps.progress`, wherever it begins.
-/

set_option autoImplicit false

namespace CxxScript.Discovery

open Host

variable {m : Machine} {cfg : Config}

/-- The units of a list that still have to be scanned. -/
def unscanned (units : List CompilationUnit) : List CompilationUnit :=
  units.filter fun u => !u.scanned

/-- The units of a list that are scanned already. -/
def scanned (units : List CompilationUnit) : List CompilationUnit :=
  units.filter fun u => u.scanned

/-- Where no unit is scanned, all have to be. -/
theorem unscanned_eq_self {units : List CompilationUnit} (h : ∀ u ∈ units, u.scanned = false) :
    unscanned units = units :=
  List.filter_eq_self.mpr fun u hu => by rw [h u hu]; rfl

/-- Where no unit is scanned, none is. -/
theorem scanned_eq_nil {units : List CompilationUnit} (h : ∀ u ∈ units, u.scanned = false) :
    scanned units = [] :=
  List.filter_eq_nil_iff.mpr fun u hu => by rw [h u hu]; exact Bool.false_ne_true

/-- What has been done in a number of steps from one state of a collection to another, in terms of
the visits on the way. -/
structure Progress (m : Machine) (cfg : Config) (n : Nat) (s : State) (vs : List Visit)
    (s' : State) : Prop where
  runs : ∀ v ∈ vs, v.Runs m cfg ∧ v.outcome.isOk = true
  /-- Each step has visited a unit or passed by one that was scanned. -/
  steps : n + (scanned s'.todo).length = vs.length + (scanned s.todo).length
  seen : vs.map (·.unit) ++ unscanned s'.todo =
    unscanned s.todo ++ fresh s.units (vs.flatMap Visit.found)
  /-- Where nothing was scanned at first, all that is behind now has been visited. -/
  done : (∀ u ∈ s.todo, u.scanned = false) → s'.done = s.done ++ vs.map (·.result)
  reached : ∀ before v after, vs = before ++ v :: after →
    v.unit ∈ s.todo ∨ ∃ w ∈ before, v.unit ∈ w.found
  scans : s'.host.scans = s.host.scans ++ vs.map (·.unit.path)

/-- Where each visit is of a unit to do or of one that a visit before has found, each is of a unit
to do or of one that has been found. -/
theorem found_of_reached {todo : List CompilationUnit} {vs : List Visit}
    (hreached : ∀ before v after, vs = before ++ v :: after →
      v.unit ∈ todo ∨ ∃ w ∈ before, v.unit ∈ w.found) {v : Visit} (hv : v ∈ vs) :
    v.unit ∈ todo ∨ ∃ w ∈ vs, v.unit ∈ w.found := by
  obtain ⟨before, after, hsplit⟩ := List.append_of_mem hv
  refine (hreached before v after hsplit).imp_right fun ⟨w, hw, hfound⟩ => ⟨w, ?_, hfound⟩
  rw [hsplit]
  exact List.mem_append_left _ hw

/-- To stand still is no progress. -/
theorem Progress.refl (s : State) : Progress m cfg 0 s [] s where
  runs := by simp
  steps := by simp
  seen := by simp [fresh]
  done _ := by simp
  reached before v after hsplit := by simp at hsplit
  scans := by simp

/-- To pass by a unit that is scanned, and then to make progress. -/
theorem Progress.pass {n : Nat} {done todo : List CompilationUnit} {u : CompilationUnit}
    {ts : Toolset} {h : Host} {vs : List Visit} {s' : State} (hu : u.scanned = true)
    (hp : Progress m cfg n ⟨done ++ [u], todo, ts, h⟩ vs s') :
    Progress m cfg (n + 1) ⟨done, u :: todo, ts, h⟩ vs s' where
  runs := hp.runs
  steps := by
    have hsteps := hp.steps
    have hscanned : scanned (u :: todo) = u :: scanned todo :=
      List.filter_cons_of_pos (by simpa using hu)
    rw [hscanned, List.length_cons]
    dsimp only at hsteps
    omega
  seen := by
    have hseen := hp.seen
    have hunscanned : unscanned (u :: todo) = unscanned todo :=
      List.filter_cons_of_neg (by simp [hu])
    rw [hunscanned]
    simpa [State.units] using hseen
  done hs := by
    have := hs u List.mem_cons_self
    rw [hu] at this
    cases this
  reached before v after hsplit := by
    rcases hp.reached before v after hsplit with hv | hw
    · exact .inl (List.mem_cons_of_mem _ hv)
    · exact .inr hw
  scans := hp.scans

/-- A visited unit may stand for the unit as it was, as far as identities go. -/
theorem Visit.Runs.identities {v : Visit} (hv : v.Runs m cfg) (done todo : List CompilationUnit) :
    (done ++ v.result :: todo).map (·.identity) = (done ++ v.unit :: todo).map (·.identity) := by
  rw [List.map_append, List.map_append, List.map_cons, List.map_cons, hv.follows.identity]

/-- To visit a unit and let those that are new join, and then to make progress. -/
theorem Progress.visit {n : Nat} {done todo joined : List CompilationUnit} {ts ts' : Toolset}
    {h : Host} {v : Visit} {vs : List Visit} {s' : State} (hu : v.unit.scanned = false)
    (hv : v.Runs m cfg) (ho : v.outcome.isOk = true)
    (hjoined : joined = fresh (done ++ v.result :: todo) v.found)
    (hscans : h.scans = v.start.scans ++ [v.unit.path])
    (hp : Progress m cfg n ⟨done ++ [v.result], todo ++ joined, ts', h⟩ vs s') :
    Progress m cfg (n + 1) ⟨done, v.unit :: todo, ts, v.start⟩ (v :: vs) s' := by
  have hnew : ∀ u ∈ joined, u.scanned = false := by
    intro u hj
    rw [hjoined] at hj
    exact hv.found_not_scanned u (mem_of_mem_fresh hj)
  have hunits : (⟨done ++ [v.result], todo ++ joined, ts', h⟩ : State).units =
      (done ++ v.result :: todo) ++ fresh (done ++ v.result :: todo) v.found := by
    rw [State.units, ← hjoined]
    simp only [List.append_assoc, List.cons_append, List.nil_append]
  have hunscanned : unscanned (v.unit :: todo) = v.unit :: unscanned todo :=
    List.filter_cons_of_pos (by simp [hu])
  refine
    { runs := ?runs
      steps := ?steps
      seen := ?seen
      done := ?done
      reached := ?reached
      scans := ?scans }
  case runs =>
    intro w hw
    rcases List.mem_cons.mp hw with rfl | hw
    · exact ⟨hv, ho⟩
    · exact hp.runs w hw
  case steps =>
    have hsteps := hp.steps
    have hhere : scanned (v.unit :: todo) = scanned todo :=
      List.filter_cons_of_neg (by simp [hu])
    have hthere : scanned (todo ++ joined) = scanned todo := by
      rw [scanned, List.filter_append]
      exact (congrArg _ (scanned_eq_nil hnew)).trans (List.append_nil _)
    rw [hhere, List.length_cons]
    rw [hthere] at hsteps
    omega
  case seen =>
    have hthere : unscanned (todo ++ joined) = unscanned todo ++ joined := by
      rw [unscanned, List.filter_append]
      exact congrArg _ (unscanned_eq_self hnew)
    have hseen := hp.seen
    rw [hthere] at hseen
    calc v.unit :: vs.map (·.unit) ++ unscanned s'.todo
        = v.unit :: (unscanned todo ++ joined ++
            fresh (⟨done ++ [v.result], todo ++ joined, ts', h⟩ : State).units
              (vs.flatMap Visit.found)) := by
          rw [List.cons_append, hseen]
      _ = unscanned (v.unit :: todo) ++ (fresh (done ++ v.result :: todo) v.found ++
            fresh ((done ++ v.result :: todo) ++ fresh (done ++ v.result :: todo) v.found)
              (vs.flatMap Visit.found)) := by
          rw [hunits, hunscanned, List.cons_append, List.append_assoc, hjoined]
      _ = unscanned (v.unit :: todo) ++
            fresh (done ++ v.unit :: todo) (v.found ++ vs.flatMap Visit.found) := by
          rw [← fresh_append, fresh_congr (hv.identities done todo)]
  case done =>
    intro hs
    have hpending : ∀ u ∈ todo ++ joined, u.scanned = false := by
      intro u hmem
      rcases List.mem_append.mp hmem with hmem | hmem
      · exact hs u (List.mem_cons_of_mem _ hmem)
      · exact hnew u hmem
    rw [hp.done hpending, List.append_assoc]
    rfl
  case reached =>
    intro before w after hsplit
    cases before with
    | nil =>
      obtain ⟨rfl, -⟩ := List.cons.inj hsplit
      exact .inl List.mem_cons_self
    | cons first before =>
      obtain ⟨hfirst, htail⟩ := List.cons.inj hsplit
      subst hfirst
      rcases hp.reached before w after htail with hw | ⟨x, hx, hw⟩
      · rcases List.mem_append.mp hw with hw | hw
        · exact .inl (List.mem_cons_of_mem _ hw)
        · rw [hjoined] at hw
          exact .inr ⟨v, List.mem_cons_self, mem_of_mem_fresh hw⟩
      · exact .inr ⟨x, List.mem_cons_of_mem _ hx, hw⟩
  case scans =>
    rw [hp.scans, hscans, List.append_assoc]
    rfl

/-- A run of steps makes progress. -/
theorem Steps.progress {n : Nat} {s s' : State} {vs : List Visit} (h : Steps m cfg n s vs s') :
    Progress m cfg n s vs s' := by
  induction h with
  | refl s => exact .refl s
  | @head n a b c vs vs' hstep _ ih =>
    cases hstep with
    | pass hu => exact ih.pass hu
    | @visit done todo joined ts ts' h v hu hv ho htake =>
      obtain ⟨hjoined, -, -, hwrote⟩ :=
        (leads_of_run htake _).mp (takeIn_outcome _ v.result v.found ts v.final)
      have hsilent : Wrote (fun e => e.scanned? = none) v.final h :=
        hwrote.mono fun _ => IsTaking.scanned?
      exact ih.visit hu hv ho hjoined ((scans_of_wrote hsilent).trans hv.scans)

/-- What is behind after a run of steps was behind before, was to be passed by, or has been
visited. -/
theorem Steps.visited {n : Nat} {s s' : State} {vs : List Visit} (h : Steps m cfg n s vs s')
    {u : CompilationUnit} (hu : u ∈ s'.done) :
    u ∈ s.done ∨ (u ∈ s.todo ∧ u.scanned = true) ∨ ∃ v ∈ vs, v.result = u := by
  induction h with
  | refl s => exact .inl hu
  | @head n a b c vs vs' hstep hsteps ih =>
    cases hstep with
    | @pass done todo v ts h hv =>
      rcases ih hu with hdone | ⟨htodo, hscanned⟩ | hvisited
      · rcases List.mem_append.mp hdone with hdone | hlast
        · exact .inl hdone
        · rw [List.mem_singleton] at hlast
          exact .inr (.inl ⟨hlast ▸ List.mem_cons_self, hlast ▸ hv⟩)
      · exact .inr (.inl ⟨List.mem_cons_of_mem _ htodo, hscanned⟩)
      · exact .inr (.inr hvisited)
    | @visit done todo joined ts ts' h v hv hruns hok htake =>
      rcases ih hu with hdone | ⟨htodo, hscanned⟩ | ⟨w, hw, hresult⟩
      · rcases List.mem_append.mp hdone with hdone | hlast
        · exact .inl hdone
        · exact .inr (.inr ⟨v, List.mem_cons_self, (List.mem_singleton.mp hlast).symm⟩)
      · rcases List.mem_append.mp htodo with htodo | hnew
        · exact .inr (.inl ⟨List.mem_cons_of_mem _ htodo, hscanned⟩)
        · -- What has joined is not scanned yet.
          obtain ⟨hjoined, -⟩ :=
            (leads_of_run htake _).mp (takeIn_outcome _ v.result v.found ts v.final)
          have hfresh : joined = fresh _ v.found := hjoined
          rw [hfresh] at hnew
          rw [hruns.found_not_scanned u (mem_of_mem_fresh hnew)] at hscanned
          cases hscanned
      · exact .inr (.inr ⟨w, List.mem_cons_of_mem _ hw, hresult⟩)

/-! ## The first unit -/

/-- A unit that is put for another leaves the list a first unit. -/
theorem first_replaced {done todo rest : List CompilationUnit} {u v v' : CompilationUnit}
    (hunits : done ++ v :: todo = u :: rest) (hfollows : v.Follows v')
    (todo' : List CompilationUnit) :
    ∃ w rest', done ++ v' :: todo' = w :: rest' ∧ u.Follows w := by
  cases done with
  | nil =>
    cases hunits
    exact ⟨v', todo', rfl, hfollows⟩
  | cons first done =>
    cases hunits
    exact ⟨u, _, rfl, .refl u⟩

/-- The unit that stands first goes on standing first, however the collection ends. -/
theorem collect_first (fuel : Nat) (done todo : List CompilationUnit) (ts : Toolset) (h : Host) :
    Leads (collect m cfg fuel done todo ts) h fun r _ => ∀ u rest, done ++ todo = u :: rest →
      ∃ u' rest', r.2.1 = u' :: rest' ∧ u.Follows u' := by
  induction fuel generalizing done todo ts h with
  | zero =>
    cases todo with
    | nil => exact fun u rest hunits => ⟨u, rest, by rwa [List.append_nil] at hunits, .refl u⟩
    | cons v todo => exact fun u rest hunits => ⟨u, rest, hunits, .refl u⟩
  | succ fuel ih =>
    cases todo with
    | nil => exact fun u rest hunits => ⟨u, rest, by rwa [List.append_nil] at hunits, .refl u⟩
    | cons v todo =>
      unfold collect
      split
      · refine (ih (done ++ [v]) todo ts h).mono fun r _ hr u rest hunits => ?_
        exact hr u rest (by rw [List.append_assoc]; exact hunits)
      · obtain ⟨⟨outcome, v'⟩, h₁, hscan⟩ := exists_run (v.scan m cfg) h
        have hfollows : v.Follows v' :=
          Visit.Runs.follows (v := ⟨v, h, outcome, v', h₁⟩) hscan
        refine (leads_bind _ _ _ _).mpr ((leads_of_run hscan _).mpr ?_)
        cases outcome with
        | error e => exact fun u rest hunits => first_replaced hunits hfollows todo
        | ok found =>
          refine Leads.skip fun r h₂ => ?_
          refine (ih (done ++ [v']) (todo ++ r.2) r.1 h₂).mono fun r' _ hr u rest hunits => ?_
          obtain ⟨w, rest', hw, hfirst⟩ := first_replaced hunits hfollows (todo ++ r.2)
          obtain ⟨w', rest'', hw', hnext⟩ :=
            hr w rest' (by rw [List.append_assoc]; exact hw)
          exact ⟨w', rest'', hw', hfirst.trans hnext⟩

end CxxScript.Discovery

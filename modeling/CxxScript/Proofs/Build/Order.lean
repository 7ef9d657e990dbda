import CxxScript.Proofs.Build.Progress

/-!
# The order in which files are collected

A collection that goes well has visited everything it has seen. So its list is complete, has no file
twice, and is in the order of first mention: `Collected`. To collect again changes nothing, because
nothing is left to scan.
-/

set_option autoImplicit false

namespace CxxScript.Discovery

open Host

/-! ## New units and duplicates -/

/-- It does not matter which of two units is compared with which. -/
theorem same_comm (u v : CompilationUnit) : u.same v = v.same u := by
  rw [CompilationUnit.same, CompilationUnit.same, Bool.beq_comm]

/-- The new units are what is left of those that are not known when duplicates are left out. -/
theorem fresh_eq_eraseDupsBy (known l : List CompilationUnit) :
    fresh known l = (l.filter fun u => !isKnown known u).eraseDupsBy CompilationUnit.same := by
  induction l generalizing known with
  | nil => rfl
  | cons u rest ih =>
    rw [fresh]
    by_cases hu : isKnown known u = true
    · rw [if_pos hu, ih known, List.filter_cons_of_neg (by simp [hu])]
    · have hnew : ((u :: rest).filter fun v => !isKnown known v) =
          u :: rest.filter fun v => !isKnown known v :=
        List.filter_cons_of_pos (by simpa using hu)
      rw [if_neg hu, ih (known ++ [u]), hnew, List.eraseDupsBy_cons, List.filter_filter]
      congr 2
      refine List.filter_congr fun v _ => ?_
      simp only [isKnown, List.any_append, List.any_cons, List.any_nil, Bool.or_false,
        Bool.not_or, same_comm u v]
      cases List.any known fun x => x.same v <;> cases v.same u <;> rfl

/-- One unit and the new ones of a list are the two together without duplicates. -/
theorem cons_fresh_eq_eraseDupsBy (u : CompilationUnit) (l : List CompilationUnit) :
    u :: fresh [u] l = (u :: l).eraseDupsBy CompilationUnit.same := by
  rw [fresh_eq_eraseDupsBy, List.eraseDupsBy_cons]
  congr 2
  refine List.filter_congr fun v _ => ?_
  simp only [isKnown, List.any_cons, List.any_nil, Bool.or_false, same_comm u v]
  cases v.same u <;> rfl

/-! ## To collect again -/

variable {m : Machine} {cfg : Config}

/-- Where all units are scanned there is nothing to do. -/
theorem collect_of_scanned (m : Machine) (cfg : Config) (fuel : Nat)
    (done todo : List CompilationUnit) (ts : Toolset) (h : Host)
    (hs : ∀ u ∈ todo, u.scanned = true) (hfuel : todo.length ≤ fuel) :
    (collect m cfg fuel done todo ts).run h = ((.ok (), done ++ todo, ts), h) := by
  induction todo generalizing fuel done with
  | nil => cases fuel <;> rw [List.append_nil] <;> rfl
  | cons u rest ih =>
    rw [List.length_cons] at hfuel
    obtain ⟨fuel, rfl⟩ : ∃ k, fuel = k + 1 := ⟨fuel - 1, by omega⟩
    have hu : u.scanned = true := hs u List.mem_cons_self
    have hrest : ∀ v ∈ rest, v.scanned = true := fun v hv => hs v (List.mem_cons_of_mem _ hv)
    rw [collect, if_pos hu, ih fuel (done ++ [u]) hrest (by omega), List.append_assoc]
    rfl

/-- To go through units that are all scanned changes nothing. -/
theorem run_of_scanned (m : Machine) (cfg : Config) {units : List CompilationUnit} (ts : Toolset)
    (h : Host) (hs : ∀ u ∈ units, u.scanned = true) :
    (run m cfg units ts).run h = ((.ok (), units, ts), h) := by
  have hfuel : units.length ≤ budget units := by
    rw [budget, Nat.add_assoc]
    exact Nat.le_add_right _ _
  exact collect_of_scanned m cfg (budget units) [] units ts h hs hfuel

/-! ## A collection that goes well -/

/-- What it means that units have been collected from a first one by visits: the visits are the
course that the collection took, each went well and stands for one unit of the list, and the list is
complete, has nothing in it that was not referred to, and is in the order of first mention. -/
structure Collected (m : Machine) (cfg : Config) (primary : CompilationUnit) (ts : Toolset)
    (h : Host) (visits : List Visit) (units : List CompilationUnit) (ts' : Toolset) (h' : Host) :
    Prop where
  /-- The visits are the steps that were taken, one after the other. -/
  course : ∃ n, Steps m cfg n ⟨[], [primary], ts, h⟩ visits ⟨units, [], ts', h'⟩
  /-- Each visit is a scan that went well. -/
  runs : ∀ v ∈ visits, v.Runs m cfg ∧ v.outcome.isOk = true
  /-- Each unit has been visited once, in the order of the list. -/
  once : units = visits.map (·.result)
  /-- Each unit has the file, the key and the kind under which it was first mentioned. -/
  follows : ∀ v ∈ visits, v.unit.Follows v.result
  /-- No file has been scanned but those of the list, each once and in its order. -/
  scans : h'.scans = h.scans ++ units.map (·.path)
  scanned : ∀ u ∈ units, u.scanned = true
  distinct : (units.map (·.identity)).Nodup
  first : ∃ rest, visits.map (·.unit) = primary :: rest
  /-- Whatever a listed unit refers to is listed. -/
  closed : ∀ v ∈ visits, ∀ f ∈ v.found, ∃ u ∈ units, u.same f = true
  /-- Whatever is listed behind the first unit was referred to by one that stands before it. -/
  reached : ∀ before v after, visits = before ++ v :: after → before ≠ [] →
    ∃ w ∈ before, v.unit ∈ w.found
  /-- The units were mentioned in this order, by the visits in theirs. -/
  ordered : visits.map (·.unit) =
    (primary :: visits.flatMap Visit.found).eraseDupsBy CompilationUnit.same

/-- A run of steps from one unit to an empty list of units to do has collected them. -/
theorem Steps.collected {n : Nat} {primary : CompilationUnit} {ts ts' : Toolset} {h h' : Host}
    {vs : List Visit} {units : List CompilationUnit} (hprimary : primary.scanned = false)
    (hsteps : Steps m cfg n ⟨[], [primary], ts, h⟩ vs ⟨units, [], ts', h'⟩) :
    Collected m cfg primary ts h vs units ts' h' := by
  have hp := hsteps.progress
  have honce : units = vs.map (·.result) := by
    simpa using hp.done (by simpa using hprimary)
  have hseen : vs.map (·.unit) = primary :: fresh [primary] (vs.flatMap Visit.found) := by
    simpa [State.units, unscanned, hprimary] using hp.seen
  have hfollows : ∀ v ∈ vs, v.unit.Follows v.result := fun v hv => (hp.runs v hv).1.follows
  have hids : units.map (·.identity) = (vs.map (·.unit)).map (·.identity) := by
    rw [honce, List.map_map, List.map_map]
    exact List.map_congr_left fun v hv => (hfollows v hv).identity
  have hnodup : ((vs.map (·.unit)).map (·.identity)).Nodup := by
    rw [hseen]
    exact @nodup_append_fresh [primary] (by simp) _
  have hpaths : units.map (·.path) = vs.map (·.unit.path) := by
    rw [honce, List.map_map]
    exact List.map_congr_left fun v hv => (hfollows v hv).path
  refine
    { course := ⟨n, hsteps⟩
      runs := hp.runs
      once := honce
      follows := hfollows
      scans := by rw [hpaths]; exact hp.scans
      scanned := ?scanned
      distinct := ?distinct
      first := ⟨_, hseen⟩
      closed := ?closed
      reached := ?reached
      ordered := by rw [hseen, cons_fresh_eq_eraseDupsBy] }
  case scanned =>
    intro u hu
    rw [honce] at hu
    obtain ⟨v, hv, rfl⟩ := List.mem_map.mp hu
    exact (hp.runs v hv).1.result_scanned (hp.runs v hv).2
  case distinct =>
    rw [hids]
    exact hnodup
  case closed =>
    intro v hv f hf
    have hmem : f ∈ vs.flatMap Visit.found := List.mem_flatMap.mpr ⟨v, hv, hf⟩
    have hknown : f.identity ∈ (vs.map (·.unit)).map (·.identity) := by
      rw [hseen]
      exact (isKnown_iff ([primary] ++ _) f).mp (isKnown_append_fresh hmem)
    rw [← hids] at hknown
    obtain ⟨u, hu, huf⟩ := List.mem_map.mp hknown
    exact ⟨u, hu, by rw [CompilationUnit.same, huf, beq_self_eq_true]⟩
  case reached =>
    intro before v after hsplit hbefore
    rcases hp.reached before v after hsplit with hv | hw
    · exfalso
      -- Otherwise the first unit would be visited twice, and its key would stand twice in the list.
      obtain ⟨w, before, rfl⟩ := List.exists_cons_of_ne_nil hbefore
      have hw : w.unit = primary := by
        rw [hsplit] at hseen
        exact (List.cons.inj hseen).1
      rw [List.mem_singleton] at hv
      rw [hsplit] at hnodup
      simp [hw, hv] at hnodup
    · exact hw

end CxxScript.Discovery

namespace CxxScript.Build

open Host Discovery

/-- Collecting the files of a build is going through its units. -/
theorem run_discover {m : Machine} {b : Build} {ts ts' : Toolset} {h h' : Host}
    {result : Except Failure Unit} {units : List CompilationUnit}
    (hr : (Discovery.run m b.config b.units ts).run h = ((result, units, ts'), h')) :
    (b.discover m ts).run h = ((result, b.withUnits units, ts'), h') := by
  rw [discover, run_bind_of_run hr]
  rfl

/-- Nothing changes when a build's units are replaced by themselves. -/
theorem withUnits_units (b : Build) : b.withUnits b.units = b := rfl

/-- Where the units of a build are all scanned, to collect its files changes nothing. -/
theorem discover_of_scanned (m : Machine) {b : Build} (ts : Toolset) (h : Host)
    (hs : ∀ u ∈ b.units, u.scanned = true) : (b.discover m ts).run h = ((.ok (), b, ts), h) := by
  rw [run_discover (run_of_scanned m b.config ts h hs), withUnits_units]

/-- Where units are gone through without a failure, a run of steps has gone through all of them. -/
theorem steps_of_run {m : Machine} {cfg : Config} {units units' : List CompilationUnit}
    {ts ts' : Toolset} {h h' : Host}
    (hr : (Discovery.run m cfg units ts).run h = ((.ok (), units', ts'), h')) :
    ∃ n vs, Steps m cfg n ⟨[], units, ts, h⟩ vs ⟨units', [], ts', h'⟩ := by
  rcases collect_run m cfg (budget units) [] units ts h with
    ⟨vs, r, h₂, hrun, hends⟩ | ⟨vs, s, hrun, -, -⟩
  · cases hrun.symm.trans hr
    cases hends with
    | @finished n _ _ _ _ hsteps => exact ⟨n, vs, hsteps⟩
  · rw [show (collect m cfg _ [] _ ts).run h = _ from hr] at hrun
    cases hrun

/-- Where the files of a build are collected without a failure, a run of steps has gone through its
units. -/
theorem exists_steps {m : Machine} {h h' : Host} {ts ts' : Toolset} {b b' : Build}
    (hd : (b.discover m ts).run h = ((.ok (), b', ts'), h')) : ∃ n vs,
      Steps m b.config n ⟨[], b.units, ts, h⟩ vs ⟨b'.units, [], ts', h'⟩ := by
  obtain ⟨⟨result, units, ts₁⟩, h₁, hr⟩ := exists_run (Discovery.run m b.config b.units ts) h
  cases (run_discover hr).symm.trans hd
  obtain ⟨n, vs, hsteps⟩ := steps_of_run hr
  have hne : units ≠ [] := by
    obtain ⟨u, rest, hunits, -⟩ :=
      (leads_of_run hr _).mp (collect_first _ [] b.units ts h) b.primary b.others rfl
    have hunits : units = u :: rest := hunits
    rw [hunits]
    exact List.cons_ne_nil u rest
  exact ⟨n, vs, by rwa [units_withUnits _ hne]⟩

/-- Where the files of a script are collected without a failure, a run of steps from its own unit
has gone through all of them. -/
theorem steps_of_discover {m : Machine} {h₀ h h' : Host} {cfg : Config} {script : Path}
    {ts ts' : Toolset} {b : Build}
    (hd : ((Build.ofPath m h₀ cfg script).discover m ts).run h = ((.ok (), b, ts'), h')) :
    ∃ n vs, Steps m cfg n ⟨[], [.ofPath m h₀ .source script], ts, h⟩ vs ⟨b.units, [], ts', h'⟩ :=
  exists_steps hd

/-- Where the files of a script are collected without a failure, its units are exactly the files
that the script leads to, each once and in the order of first mention, and to collect them again
changes nothing. -/
theorem discover_collects {m : Machine} {h₀ h h' : Host} {cfg : Config} {script : Path}
    {ts ts' : Toolset} {b : Build}
    (hd : ((Build.ofPath m h₀ cfg script).discover m ts).run h = ((.ok (), b, ts'), h')) :
    (∃ visits, Collected m cfg (.ofPath m h₀ .source script) ts h visits b.units ts' h') ∧
      ∀ h'', (b.discover m ts').run h'' = ((.ok (), b, ts'), h'') := by
  obtain ⟨n, vs, hsteps⟩ := steps_of_discover hd
  have hc := hsteps.collected rfl
  exact ⟨⟨vs, hc⟩, fun h'' => discover_of_scanned m ts' h'' hc.scanned⟩

/-- A machine in a directory, on which no program can be started. -/
def idleMachine (cwd : Location) (pid : Nat) : Machine where
  cwd
  environment := []
  pid
  time := 0
  accountHome := none
  execute _ _ := .error .noEntry

/-- The host on which two sources refer to each other and one of them to itself. -/
def circle : Host where
  files :=
    { entries := [
        (["a.cpp"], .file (Text.Utf8.encode "//#! source: ./b.cpp\n//#! source: a.cpp\n") false),
        (["b.cpp"], .file (Text.Utf8.encode "//#! source: a.cpp\n") false)] }

/-- The configuration that asks for nothing but a cache root. -/
def plainConfig (root : String) : Config := { cacheRoot := ⟨root⟩ }

/-- The two files of a circle are collected. -/
theorem discover_collects_circle :
    ∃ b ts' h', ((Build.ofPath (idleMachine [] 7) circle (plainConfig "/cache") ⟨"a.cpp"⟩).discover
        (idleMachine [] 7) (.ofConfig (plainConfig "/cache"))).run circle = ((.ok (), b, ts'), h') ∧
      b.units.map (·.path.text) = ["a.cpp", "b.cpp"] ∧
      ∃ visits, Collected (idleMachine [] 7) (plainConfig "/cache")
        (.ofPath (idleMachine [] 7) circle .source ⟨"a.cpp"⟩) (.ofConfig (plainConfig "/cache"))
        circle visits b.units ts' h' := by
  obtain ⟨⟨result, b, ts'⟩, h', hr⟩ := exists_run ((Build.ofPath (idleMachine [] 7) circle
    (plainConfig "/cache") ⟨"a.cpp"⟩).discover (idleMachine [] 7)
    (.ofConfig (plainConfig "/cache"))) circle
  have hok : (((Build.ofPath (idleMachine [] 7) circle (plainConfig "/cache") ⟨"a.cpp"⟩).discover
      (idleMachine [] 7) (.ofConfig (plainConfig "/cache"))).run circle).1.1.isOk = true := by
    decide +kernel
  have hunits : (((Build.ofPath (idleMachine [] 7) circle (plainConfig "/cache")
      ⟨"a.cpp"⟩).discover (idleMachine [] 7) (.ofConfig (plainConfig "/cache"))).run
      circle).1.2.1.units.map (·.path.text) = ["a.cpp", "b.cpp"] := by
    decide +kernel
  rw [hr] at hok hunits
  cases result with
  | error e => cases hok
  | ok _ => exact ⟨b, ts', h', hr, hunits, (discover_collects hr).1⟩

end CxxScript.Build

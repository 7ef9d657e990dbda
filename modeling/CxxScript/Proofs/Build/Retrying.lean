import CxxScript.Proofs.Build.Failing

/-!
# Trying again after a failure

What becomes of a build that has failed on a directive when it is tried again depends on the fault.
A file that cannot be read has left everything as it was, so as long as it cannot be read every
later attempt fails on it before anything is started: `Stuck`. After any other fault the unit counts
as scanned. The next attempt passes it by, without its flags and without the units it refers to, and
goes on with the units behind it: `retry_after_failure`.
-/

set_option autoImplicit false

namespace CxxScript

open Host

namespace Discovery

variable {m : Machine} {cfg : Config}

/-- Units that are scanned are passed by. -/
theorem steps_pass (m : Machine) (cfg : Config) {passed : List CompilationUnit}
    (hpassed : ∀ u ∈ passed, u.scanned = true) (done todo : List CompilationUnit) (ts : Toolset)
    (h : Host) :
    Steps m cfg passed.length ⟨done, passed ++ todo, ts, h⟩ [] ⟨done ++ passed, todo, ts, h⟩ := by
  induction passed generalizing done with
  | nil =>
    rw [List.append_nil]
    exact .refl _
  | cons u rest ih =>
    have hu : u.scanned = true := hpassed u List.mem_cons_self
    have hrest := ih (fun v hv => hpassed v (List.mem_cons_of_mem _ hv)) (done ++ [u])
    rw [List.append_assoc] at hrest
    exact .head (.pass hu) hrest

/-- Going through units whose first ones are scanned is going through those behind them. -/
theorem run_of_passed (m : Machine) (cfg : Config) {passed : List CompilationUnit}
    (hpassed : ∀ u ∈ passed, u.scanned = true) (todo : List CompilationUnit) (ts : Toolset)
    (h : Host) : ∃ fuel, todo.length < fuel ∧ (run m cfg (passed ++ todo) ts).run h =
      (collect m cfg fuel passed todo ts).run h := by
  have hbudget : budget (passed ++ todo) = passed.length + (todo.length + (3 * spellings + 1)) := by
    rw [budget, List.length_append, Nat.add_assoc, Nat.add_assoc]
  refine ⟨todo.length + (3 * spellings + 1), by rw [← Nat.add_assoc]; omega, ?_⟩
  have hsteps := steps_pass m cfg hpassed [] todo ts h
  have hrun := hsteps.run_collect (todo.length + (3 * spellings + 1))
  rw [run, hbudget]
  exact hrun

end Discovery

namespace Build

open Discovery

variable {m : Machine}

/-- One attempt at a build: to collect its files, or to build it. -/
inductive Attempt where
  | discover
  | build
  deriving DecidableEq, Repr

/-- Make an attempt. -/
def attempt (m : Machine) (b : Build) (ts : Toolset) :
    Attempt → StateM Host (Except Failure Unit × Build × Toolset)
  | .discover => b.discover m ts
  | .build => do
    let (result, b, ts) ← b.build m ts
    return (result.map fun _ => (), b, ts)

/-- What came of an attempt, and the hosts around it. -/
structure Attempted where
  start : Host
  outcome : Except Failure Unit
  final : Host

/-- A build is stuck at a file that cannot be read: all units before the one for that file are
scanned, and that one is not. -/
def Stuck (m : Machine) (p : Path) (b : Build) (fs : Files) : Prop :=
  (∃ done u todo, b.units = done ++ u :: todo ∧ (∀ v ∈ done, v.scanned = true) ∧
    u.scanned = false ∧ u.path = p) ∧
  ∃ cause, fs.read m.cwd p = .error cause

/-- Where a build is stuck, collecting its files fails on the file that cannot be read, and changes
nothing. -/
theorem Stuck.run_discover {p : Path} {b : Build} {h : Host} (hs : Stuck m p b h.files)
    (ts : Toolset) : ∃ cause, (b.discover m ts).run h =
      ((.error (.directive (.read p cause)), b, ts), h.noted (.scanning p)) := by
  obtain ⟨⟨done, u, todo, hunits, hdone, hu, rfl⟩, cause, hread⟩ := hs
  refine ⟨cause, ?_⟩
  obtain ⟨fuel, hfuel, hrun⟩ := run_of_passed m b.config hdone (u :: todo) ts h
  obtain ⟨k, rfl⟩ : ∃ k, fuel = k + 1 := ⟨fuel - 1, by omega⟩
  rw [collect_visit m b.config k done todo ts hu (scan_of_unreadable hread), ← hunits] at hrun
  exact Build.run_discover hrun

/-- The file of a unit, and whether it has been scanned. -/
def mark (u : CompilationUnit) : Path × Bool := (u.path, u.scanned)

/-- Clearing up leaves the units their files, and those that are scanned are. -/
theorem clearUp_marks {b b' : Build} {h h' : Host} (hc : (b.clearUp m).run h = (b', h')) :
    b'.units.map mark = b.units.map mark := by
  obtain ⟨-, hprimary, hothers⟩ := (leads_of_run hc _).mp (clearUp_result b h)
  have hcleaned : ∀ u : CompilationUnit, mark (u.cleaned b.config) = mark u := by
    intro u
    unfold CompilationUnit.cleaned
    split <;> rfl
  have hwithout : ∀ u : CompilationUnit, mark (u.withoutExecutable b.config) = mark u := by
    intro u
    unfold CompilationUnit.withoutExecutable
    split <;> rfl
  rw [units, units, List.map_cons, List.map_cons, hprimary, hothers, List.map_map, hwithout,
    hcleaned]
  exact congrArg _ (List.map_congr_left fun u _ => hcleaned u)

/-- A build stays stuck when files are taken away and its units keep their marks. -/
theorem Stuck.of_marks {p : Path} {b b' : Build} {fs fs' : Files} (hs : Stuck m p b fs)
    (hmarks : b'.units.map mark = b.units.map mark) (hg : fs'.Grows fs) : Stuck m p b' fs' := by
  obtain ⟨⟨done, u, todo, hunits, hdone, hu, hp⟩, cause, hread⟩ := hs
  rw [hunits, List.map_append, List.map_cons] at hmarks
  obtain ⟨done', rest, hunits', hdone', hrest⟩ := List.map_eq_append_iff.mp hmarks
  obtain ⟨u', todo', rfl, hu', -⟩ := List.map_eq_cons_iff.mp hrest
  refine ⟨⟨done', u', todo', hunits', ?_, ?_, ?_⟩, ?_⟩
  · intro v hv
    have hmem : mark v ∈ done.map mark := hdone' ▸ List.mem_map_of_mem hv
    obtain ⟨w, hw, hwv⟩ := List.mem_map.mp hmem
    exact (congrArg Prod.snd hwv).symm.trans (hdone w hw)
  · exact (congrArg Prod.snd hu').trans hu
  · exact (congrArg Prod.fst hu').trans hp
  · cases hread' : fs'.read m.cwd p with
    | error cause' => exact ⟨cause', rfl⟩
    | ok content =>
      obtain ⟨content', hok⟩ := Files.read_grows hg hread'
      rw [hok] at hread
      cases hread

/-- An attempt at a build that is stuck fails on the file that cannot be read, starts no program,
and leaves the build stuck. -/
theorem Stuck.attempt {p : Path} {b b' : Build} {ts ts' : Toolset} {h h' : Host} {a : Attempt}
    {r : Except Failure Unit} (hs : Stuck m p b h.files)
    (ha : (b.attempt m ts a).run h = ((r, b', ts'), h')) :
    (∃ cause, r = .error (.directive (.read p cause))) ∧ Stuck m p b' h'.files ∧
      Wrote (fun e => e.isStart = false) h h' := by
  obtain ⟨cause, hd⟩ := hs.run_discover ts
  have hnoted : Wrote (fun e => e.isStart = false) h (h.noted (.scanning p)) := .single rfl rfl
  cases a with
  | discover =>
    cases hd.symm.trans ha
    exact ⟨⟨cause, rfl⟩, hs, hnoted⟩
  | build =>
    obtain ⟨b₂, h₂, hc⟩ := exists_run (b.clearUp m) (h.noted (.scanning p))
    have hb := run_build_of_failed hd hc
    rw [Build.attempt, run_bind_of_run hb] at ha
    cases ha
    obtain ⟨hremoved, -⟩ := (leads_of_run hc _).mp (clearUp_clears (removalFrame m) b _)
    have hfiles : h'.files.Grows h.files :=
      (leads_of_run hc _).mp (clearUp_clears (shrinkFrame m) b _)
    refine ⟨⟨cause, rfl⟩, hs.of_marks (clearUp_marks hc) hfiles, hnoted.trans ?_⟩
    refine hremoved.mono fun e he => ?_
    rcases he with ⟨p, rfl⟩ | ⟨p, cause, rfl⟩ <;> rfl

/-- The host of a script with an unknown directive, a library and a second source, with a compiler
in the directory of programs. -/
def draft : Host where
  files :=
    { entries := [
        (["bin"], .directory), (["bin", "cc"], .file [] true),
        (["m.cpp"], .file (Text.Utf8.encode
          "//#! frobnicate\n//#! -lm\n//#! source: a.cpp\nint main();\n") false),
        (["a.cpp"], .file (Text.Utf8.encode "int a;\n") false)] }

/-- Collecting the files of that script. -/
def draftRun : (Except Failure Unit × Build × Toolset) × Host :=
  ((Build.ofPath workshop draft benchConfig ⟨"m.cpp"⟩).attempt workshop (.ofConfig benchConfig)
    .discover).run draft

end Build

end CxxScript

import CxxScript.Proofs.Build.Clearing
import CxxScript.Proofs.Build.Executables

/-!
# Starting what was linked

A build that goes well has told the linker to write the executable that its own unit has from then
on, `Build.Built`, and the launcher asks that unit. So the program that is started has the name of
the file that was linked. With a slash in it the name leads to that file whatever the search path;
without one it is searched for, and on some search path it is not found: `launch_starts_linked`. The
name is without a slash just when the script's is and the executable stands beside the script.
-/

set_option autoImplicit false

namespace CxxScript

open Host

/-- There is a slash in a trunk at a site unless there is none in the trunk and it stands beside its
source. -/
theorem Site.not_mem_trunk {m : Machine} {root : Path} (hroot : root.text ≠ "") (s : Site)
    (t : String) : '/' ∉ (s.trunk m root t).toList ↔ s = .beside ∧ '/' ∉ t.toList := by
  cases s with
  | beside => exact (and_iff_right rfl).symm
  | below seen =>
    have hmem : '/' ∈ (Path.mirror root (view? m seen) t).toList := Path.mem_mirror hroot _ t
    exact ⟨fun hnot => absurd hmem hnot, fun h => by cases h.1⟩

namespace Host

/-! ## Running the program in a file -/

/-- Run the program in the file at a path, whatever the search path, with an explicit argument
vector. -/
def runAt (m : Machine) (program : Path) (argv : List String) :
    StateM Host (Except ProcessError ExitStatus) := do
  note (.runningAs program argv)
  runAttempt (m.startAt true program.text argv) (Text.Words.join argv) false

/-- By a name with a slash the program in the file at that path is run. -/
theorem runAs_of_slash {program : Path} (hslash : '/' ∈ program.text.toList) (m : Machine)
    (path name : String) (args : List String) :
    runAs (m.withPath path) program (name :: args) = runAt m program (name :: args) := by
  have hstart : (m.withPath path).start true program.text = m.startAt true program.text := by
    rw [(m.withPath path).start_of_slash true (List.contains_iff_mem.mpr hslash),
      Machine.startAt_withPath]
  rw [runAs, runAt, runToEnd, hstart]
  rfl

/-- A program of a name without a slash is run from a directory on the search path. -/
theorem runAs_bare {program : Path} (hslash : '/' ∉ program.text.toList) (m : Machine)
    (name : String) (args : List String) (h : Host) :
    Leads (runAs m program (name :: args)) h fun r _ => ∀ status, r = .ok status →
      ∃ dir ∈ SearchPath.entries m.searchPath, ∃ o, m.executeNamed true
        (SearchPath.pathIn dir program.text) (name :: args) (h.signals.blocked.diff .interrupts)
        h.files = .ok o ∧ o.status = status := by
  have hbare : program.text.toList.contains '/' = false := by
    rw [← Bool.not_eq_true, List.contains_iff_mem]
    exact hslash
  unfold runAs runToEnd runAttempt
  rw [leads_bind, leads_note, leads_bind, leads_get]
  have hblock : ∀ h : Host, Leads (modifySignals (·.blockInterrupts)) h fun _ h₁ =>
      h₁.files = h.files ∧ h₁.signals.forProgram = h.signals.blocked.diff .interrupts :=
    fun h => ⟨settle_files _,
      (congrArg _ (settle_signals _)).trans (Signals.forProgram_blockInterrupts _)⟩
  refine Leads.bind (hblock _) fun _ h₁ hh₁ => ?_
  rw [leads_bind, leads_get, hh₁.1, hh₁.2]
  split
  · refine Leads.skip fun _ h₂ => ?_
    intro status hstatus
    cases hstatus
  · next o hstart =>
    refine Leads.skip fun _ h₂ => Leads.skip fun _ h₃ => ?_
    intro status hstatus
    cases hstatus
    obtain ⟨dir, hdir, hexecute⟩ := Machine.exists_of_start_bare hbare hstart
    exact ⟨dir, hdir, o, hexecute, rfl⟩

end Host

namespace Build

open CompilationUnit

variable {m : Machine} {cfg : Config}

/-! ## What the steps of a build leave to its own unit -/

/-- When a build's units are replaced by ones that keep what they have, its own keeps it. -/
theorem keeps_withUnits {b : Build} {us : List CompilationUnit} (h : KeepAll b.units us) :
    (b.withUnits us).units = us ∧ b.primary.Keeps (b.withUnits us).primary ∧
      (b.withUnits us).config = b.config := by
  cases h with
  | cons hu _ => exact ⟨rfl, hu, rfl⟩

/-- Compiling units leaves the toolset its configuration and the units what they keep. -/
theorem compileUnits_outcome (us : List CompilationUnit) (ts : Toolset) (h : Host) :
    Leads (compileUnits m us ts) h fun r _ => r.2.2.config = ts.config ∧ KeepAll us r.2.1 := by
  induction us generalizing ts h with
  | nil => exact ⟨rfl, .nil⟩
  | cons u rest ih =>
    unfold compileUnits
    split
    · exact Leads.bind (ih ts h) fun r h₁ hr => ⟨hr.1, .cons (.refl u) hr.2⟩
    · refine Leads.skip fun signal h₁ => ?_
      cases signal with
      | some signal => exact ⟨rfl, KeepAll.refl _⟩
      | none =>
        refine Leads.bind (Toolset.compile_outcome m ts u h₁) fun r h₂ hu => ?_
        obtain ⟨r, ts₂, u₂⟩ := r
        cases r with
        | error e => exact ⟨hu.1, .cons hu.2 (KeepAll.refl rest)⟩
        | ok _ =>
          exact Leads.bind (ih ts₂ h₂) fun r h₃ hr => ⟨hr.1.trans hu.1, .cons hu.2 hr.2⟩

/-- A unit keeps its file, its kind and its executable when its copy and its object are removed. -/
theorem keeps_cleaned (cfg : Config) (u : CompilationUnit) : u.Keeps (u.cleaned cfg) := by
  unfold cleaned
  split <;> exact ⟨rfl, rfl, rfl, rfl⟩

/-- Compiling the sources of a build leaves its own unit what it keeps. -/
theorem compile_outcome (b : Build) (ts : Toolset) (h : Host) :
    Leads (b.compile m ts) h fun r _ =>
      r.2.2.config = ts.config ∧ b.primary.Keeps r.2.1.primary := by
  unfold compile
  refine Leads.bind (compileUnits_outcome b.units ts h) fun r h₁ hr => ?_
  exact ⟨hr.1, (keeps_withUnits hr.2).2.1⟩

/-- Clearing up after a build leaves its own unit what it keeps. -/
theorem cleanup_outcome (b : Build) (h : Host) :
    Leads (b.cleanup m) h fun b' h' => b.primary.Keeps b'.primary ∧ Retains h h' := by
  have hkeeps : Leads (b.cleanup m) h fun b' _ => b.primary.Keeps b'.primary := by
    refine (cleanup_result b h).mono fun b' _ hb' => ?_
    rw [hb']
    exact keeps_cleaned b.config b.primary
  exact ⟨hkeeps, (cleanup_clears (removalFrame m) b h).1.mono fun _ _ => trivial⟩

/-- Where the files of a script are collected without a failure, its own unit has kept its path, is
named after it, and has no executable. -/
theorem discover_primary {h₀ h h' : Host} {script : Path} {ts ts' : Toolset} {b : Build}
    (hd : ((Build.ofPath m h₀ cfg script).discover m ts).run h = ((.ok (), b, ts'), h')) :
    ts'.config = ts.config ∧ b.primary.path = script.normalize ∧ b.primary.kind = .source ∧
      b.primary.executable? = none ∧ b.primary.IsNamed m cfg := by
  obtain ⟨n, vs, hsteps⟩ := steps_of_discover hd
  have hcollected := hsteps.collected rfl
  have hprimary : b.primary ∈ b.units := List.mem_cons_self
  -- The first visit is that of the script, and its result stands first in the list.
  obtain ⟨rest, hfirst⟩ := hcollected.first
  obtain ⟨v, vs, rfl⟩ : ∃ v vs', vs = v :: vs' :=
    List.exists_cons_of_ne_nil fun hnil => by rw [hnil] at hfirst; cases hfirst
  have hv : v.unit = .ofPath m h₀ .source script := (List.cons.inj hfirst).1
  have hresult : b.primary = v.result := (List.cons.inj hcollected.once).1
  have hfollows : v.unit.Follows v.result := hcollected.follows v List.mem_cons_self
  refine ⟨hsteps.config, ?_, ?_, ?_, isNamed_of_collected hcollected _ hprimary⟩
  · rw [hresult, hfollows.path, hv]
    rfl
  · rw [hresult, hfollows.kind, hv]
    rfl
  · rw [hresult, hfollows.executable?, hv]
    rfl

/-! ## A build that goes well -/

/-- How the build of a script ends when it goes well with an executable: its own unit stands for the
script and has that executable, which is the one that was asked for or is named after the script,
and the linker has been told to write it. -/
structure Built (m : Machine) (cfg tools : Config) (script : Path) (b : Build) (executable : Path)
    (ts : Toolset) (h : Host) : Prop where
  path : b.primary.path = script.normalize
  kind : b.primary.kind = .source
  executable? : b.primary.executable? = some executable
  place : tools.executable = some executable ∨ tools.executable = none ∧ ∃ s t : Site,
    executable = ⟨t.trunk m tools.cacheRoot (s.trunk m cfg.cacheRoot (trunk script.normalize)) ++
      token m.pid⟩
  linked : ∃ (c : Command) (objects : List Path),
    .note (.running (c.withArgs (ts.linkArgs executable objects))) ∈ h.events

/-- The executable of a named unit whose copy is at a site, at its own site. -/
theorem executable_of_site (root : Path) {u : CompilationUnit} (hu : u.IsNamed m cfg) (t : Site) :
    ∃ s : Site, t.path m root (u.copy.withExtension "") =
      ⟨t.trunk m root (s.trunk m cfg.cacheRoot (trunk u.path)) ++ token m.pid⟩ := by
  obtain ⟨s, hs⟩ := hu.copy
  obtain ⟨hdot, hslash⟩ := not_mem_copyExtension u.path
  refine ⟨s, ?_⟩
  have hbare : (token m.pid ++ if "".isEmpty then "" else "." ++ "") = token m.pid :=
    String.append_empty
  have hname : Path.IsName
      (Path.lastOf (s.trunk m cfg.cacheRoot (trunk u.path)).toList ++ (token m.pid).toList) := by
    have hnil : '/' ∉ ([] : List Char) := List.not_mem_nil
    have htoken := isName_append_token (Path.not_mem_lastOf
      (s.trunk m cfg.cacheRoot (trunk u.path)).toList) m.pid hnil
    rwa [List.append_nil] at htoken
  rw [copy_of_site hu hs, withExtension_ending _ m.pid hdot hslash "", hbare,
    t.path_append m root hname]

/-- Linking the sources of a build gives its own unit the executable, which the linker has been told
to write. -/
theorem link_outcome {b : Build} {ts : Toolset} (hkind : b.primary.kind = .source)
    (hnone : b.primary.executable? = none) (h : Host) :
    Leads (b.link m ts) h fun r h' => ∀ p, r.1 = .ok p →
      b.primary.ExecutableFor m ts.config p ∧
        { b.primary with executable? := some p }.Keeps r.2.1.primary ∧
        ∃ (c : Command) (objects : List Path),
          .note (.running (c.withArgs (r.2.2.linkArgs p objects))) ∈ h'.events := by
  unfold link
  refine Leads.skip fun signal h₁ => ?_
  cases signal with
  | some signal =>
    intro p hp
    cases hp
  | none =>
    refine Leads.bind (Toolset.link_outcome b.others hkind hnone h₁) fun r h₂ hr => ?_
    obtain ⟨result, ts₂, units⟩ := r
    cases result with
    | error e =>
      intro p hp
      cases hp
    | ok executable =>
      intro p hp
      cases hp
      obtain ⟨hfor, hkeep, hlinked⟩ := hr executable rfl
      cases hkeep with
      | cons hu _ => exact ⟨hfor, hu, hlinked⟩

/-- Collecting, compiling and linking end as said when they go well. -/
theorem steps_built (m : Machine) (h₀ : Host) (cfg : Config) (script : Path) (ts : Toolset)
    (h : Host) : Leads ((Build.ofPath m h₀ cfg script).steps m ts) h fun r h' =>
      ∀ p, r.1 = .ok p → Built m cfg ts.config script r.2.1 p r.2.2 h' := by
  unfold steps
  obtain ⟨⟨result, b₁, ts₁⟩, h₁, hd⟩ := exists_run ((Build.ofPath m h₀ cfg script).discover m ts) h
  rw [leads_bind, leads_of_run hd]
  cases result with
  | error f =>
    intro p hp
    cases hp
  | ok _ =>
    -- Until the link the own unit has no executable, so it is the link that gives it one.
    obtain ⟨hconfig₁, hpath, hkind, hnone, hnamed⟩ := discover_primary hd
    refine Leads.bind (compile_outcome b₁ ts₁ h₁) fun r h₂ hr => ?_
    obtain ⟨result, b₂, ts₂⟩ := r
    obtain ⟨hconfig₂, hkeeps⟩ := hr
    cases result with
    | error f =>
      intro p hp
      cases hp
    | ok _ =>
      have hconfig : ts₂.config = ts.config := hconfig₂.trans hconfig₁
      have hkind₂ : b₂.primary.kind = .source := hkeeps.kind.trans hkind
      have hnone₂ : b₂.primary.executable? = none := hkeeps.executable?.trans hnone
      refine (link_outcome hkind₂ hnone₂ h₂).mono fun r h₃ hr p hp => ?_
      obtain ⟨hfor, hgiven, hlinked⟩ := hr p hp
      refine ⟨?_, hgiven.kind.trans hkind₂, hgiven.executable?, ?_, hlinked⟩
      · exact hgiven.path.trans (hkeeps.path.trans hpath)
      · rw [ExecutableFor, hconfig, hkeeps.copy] at hfor
        rcases hfor with hasked | ⟨hasked, t, ht⟩
        · exact .inl hasked
        · obtain ⟨s, hs⟩ := executable_of_site ts.config.cacheRoot hnamed t
          rw [hpath] at hs
          exact .inr ⟨hasked, s, t, ht.trans hs⟩

/-- A build that goes well ends as said. -/
theorem build_built {h₀ h h' : Host} {script executable : Path} {ts ts' : Toolset} {b : Build}
    (hb : ((Build.ofPath m h₀ cfg script).build m ts).run h = ((.ok executable, b, ts'), h')) :
    Built m cfg ts.config script b executable ts' h' := by
  have hbuilt : Leads ((Build.ofPath m h₀ cfg script).build m ts) h fun r h' =>
      ∀ p, r.1 = .ok p → Built m cfg ts.config script r.2.1 p r.2.2 h' := by
    unfold build
    refine Leads.bind (steps_built m h₀ cfg script ts h) fun r h₁ hr => ?_
    obtain ⟨result, b₁, ts₁⟩ := r
    refine Leads.bind (cleanup_outcome b₁ h₁) fun b₂ h₂ hclean => ?_
    obtain ⟨hkeeps, hretains⟩ := hclean
    cases result with
    | error f =>
      refine Leads.skip fun b₃ h₃ => ?_
      intro p hp
      cases hp
    | ok executable =>
      intro p hp
      cases hp
      have hbuilt := hr executable rfl
      obtain ⟨c, objects, hlinked⟩ := hbuilt.linked
      exact ⟨hkeeps.path.trans hbuilt.path, hkeeps.kind.trans hbuilt.kind,
        hkeeps.executable?.trans hbuilt.executable?, hbuilt.place, c, objects,
        hretains.mem hlinked⟩
  exact (leads_of_run hb _).mp hbuilt executable rfl

/-! ## Starting the program -/

/-- Wait for the end of the program of a build. -/
def await (b : Build) (program : StateM Host (Except ProcessError ExitStatus)) :
    StateM Host (Except Failure ExitStatus × Build) := do
  match ← program with
  | .error cause => return (.error (.launch cause), b)
  | .ok status =>
    note (.finished status)
    return (.ok status, b)

/-- Start the program in the file that has been linked, whatever the search path, and wait for its
end. -/
def launchAt (m : Machine) (b : Build) (executable : Path) (args : List String) :
    StateM Host (Except Failure ExitStatus × Build) :=
  b.await (Host.runAt m executable (b.primary.path.text :: args))

/-- Without a debugger a build that has an executable is started by the name of that. -/
theorem launch_of_some {b : Build} {executable : Path} (hkind : b.primary.kind = .source)
    (hsome : b.primary.executable? = some executable) (m : Machine) (cfg : Config)
    (args : List String) : b.launch m (.ofDebugger none) cfg args =
      b.await (Host.runAs m executable (b.primary.path.text :: args)) := by
  have hdirect : (Launcher.ofDebugger none).command? executable args = none := rfl
  -- The unit remembers the executable, so no other place is looked for.
  rw [launch, Launcher.launch, executable_of_some hkind hsome, pure_bind]
  dsimp only
  rw [hdirect, await, bind_assoc]
  refine congrArg _ (funext fun ended => ?_)
  cases ended <;> rfl

/-- What holds of the status with which the program of a build ends holds of what is waited for. -/
theorem await_outcome {b : Build} {program : StateM Host (Except ProcessError ExitStatus)}
    {h : Host} {P : ExitStatus → Prop}
    (hp : Leads program h fun r _ => ∀ status, r = .ok status → P status) :
    Leads (b.await program) h fun r _ => ∀ status, r.1 = .ok status → P status := by
  unfold await
  refine Leads.bind hp fun r h₁ hr => ?_
  cases r with
  | error cause =>
    intro status hstatus
    cases hstatus
  | ok status => exact fun status' hstatus => hr status' (by cases hstatus; rfl)

/-- The executable of a script has a name without a slash just when the path of the script has none
and the executable stands beside the script. -/
theorem Built.bare_iff {tools : Config} {script executable : Path} {b : Build} {ts : Toolset}
    {h : Host} (hb : Built m cfg tools script b executable ts h) (hnone : tools.executable = none)
    (hcopies : cfg.cacheRoot.text ≠ "") (hplaces : tools.cacheRoot.text ≠ "") :
    '/' ∉ executable.text.toList ↔ '/' ∉ script.normalize.text.toList ∧
      executable = ⟨trunk script.normalize ++ token m.pid⟩ := by
  have htoken : '/' ∉ (token m.pid).toList := not_mem_token (by decide) (by decide)
  have hbare : ∀ t : String, '/' ∉ (t ++ token m.pid).toList ↔ '/' ∉ t.toList := by
    intro t
    rw [String.toList_append, List.mem_append, not_or]
    exact and_iff_left htoken
  rcases hb.place with hasked | ⟨-, s, t, rfl⟩
  · rw [hnone] at hasked
    cases hasked
  constructor
  · intro hexecutable
    have htrunk := (hbare _).mp hexecutable
    obtain ⟨rfl, htrunk⟩ := (Site.not_mem_trunk hplaces t _).mp htrunk
    obtain ⟨rfl, htrunk⟩ := (Site.not_mem_trunk hcopies s _).mp htrunk
    exact ⟨fun hscript => htrunk ((mem_trunk_normalize script).mpr hscript), rfl⟩
  · rintro ⟨hscript, heq⟩
    rw [← mem_trunk_normalize] at hscript
    rw [heq]
    exact (hbare _).mpr hscript

/-- After a build that goes well, without a debugger, a program is started by the name of the file
that the linker was told to write. If there is a slash in the name it is that file that is started,
whatever the search path. If there is none, what is started stands in a directory on the search
path, and on some search path there is nothing to start. There is none just when there is none in
the path of the script and the executable stands beside the script. -/
theorem launch_starts_linked {m : Machine} {h₀ h h' : Host} {cfg : Config}
    {script executable : Path} {ts ts' : Toolset} {b : Build}
    (hb : ((Build.ofPath m h₀ cfg script).build m ts).run h = ((.ok executable, b, ts'), h')) :
    Built m cfg ts.config script b executable ts' h' ∧
      ('/' ∈ executable.text.toList → ∀ path args k,
        (b.launch (m.withPath path) (.ofDebugger none) cfg args).run k =
          (b.launchAt m executable args).run k) ∧
      ('/' ∉ executable.text.toList →
        (∀ path args k status,
          ((b.launch (m.withPath path) (.ofDebugger none) cfg args).run k).1.1 = .ok status →
            ∃ dir ∈ SearchPath.entries path, ∃ o, m.executeNamed true
              (SearchPath.pathIn dir executable.text) (script.normalize.text :: args)
              (k.signals.blocked.diff .interrupts) k.files = .ok o ∧ o.status = status) ∧
        ∃ path, ∀ args k,
          ((b.launch (m.withPath path) (.ofDebugger none) cfg args).run k).1.1.isOk = false) ∧
      (ts.config.executable = none → cfg.cacheRoot.text ≠ "" → ts.config.cacheRoot.text ≠ "" →
        ('/' ∉ executable.text.toList ↔ '/' ∉ script.normalize.text.toList ∧
          executable = ⟨trunk script.normalize ++ token m.pid⟩)) := by
  have hbuilt := build_built hb
  have hsearched : '/' ∉ executable.text.toList → ∀ path args k status,
      ((b.launch (m.withPath path) (.ofDebugger none) cfg args).run k).1.1 = .ok status →
        ∃ dir ∈ SearchPath.entries path, ∃ o, m.executeNamed true
          (SearchPath.pathIn dir executable.text) (script.normalize.text :: args)
          (k.signals.blocked.diff .interrupts) k.files = .ok o ∧ o.status = status := by
    intro hslash path args k status hstatus
    rw [launch_of_some hbuilt.kind hbuilt.executable?, hbuilt.path] at hstatus
    exact await_outcome (runAs_bare hslash (m.withPath path) _ args k) status hstatus
  refine ⟨hbuilt, fun hslash path args k => ?_, fun hslash => ⟨hsearched hslash, ?_⟩,
    hbuilt.bare_iff⟩
  · rw [launch_of_some hbuilt.kind hbuilt.executable?, runAs_of_slash hslash, launchAt]
  · refine ⟨SearchPath.barren, fun args k => ?_⟩
    cases hstatus : ((b.launch (m.withPath SearchPath.barren) (.ofDebugger none) cfg
      args).run k).1.1 with
    | error f => rfl
    | ok status =>
      obtain ⟨dir, hdir, -⟩ := hsearched hslash _ args k status hstatus
      rw [SearchPath.entries_barren] at hdir
      cases hdir

/-- A machine with a directory of programs. A program that is told where to write makes an
executable file there unless it is told to compile only; any other ends with the status 3. -/
def workshop : Machine where
  cwd := []
  environment := [("PATH", "/bin")]
  pid := 7
  time := 0
  accountHome := none
  execute s fs :=
    match s.argv.dropWhile (· ≠ "-o") with
    | _ :: target :: _ => .ok
      { status := .exited 0
        files := if s.argv.contains "-c" then fs
          else fs.set (⟨target⟩ : Path).fileName?.toList (.file [] true) }
    | _ => .ok { status := .exited 3, files := fs }

/-- The host of a script in the root, with a compiler in the directory of programs. -/
def bench : Host where
  files :=
    { entries := [
        (["bin"], .directory), (["bin", "cc"], .file [] true),
        (["m.cpp"], .file (Text.Utf8.encode "int main();\n") false)] }

/-- The configuration that names the compiler. -/
def benchConfig : Config := { cacheRoot := ⟨"/cache"⟩, cxx := some "cc" }

/-- Building the script under a path. -/
def benchRun (script : String) : (Except Failure Path × Build × Toolset) × Host :=
  ((Build.ofPath workshop bench benchConfig ⟨script⟩).build workshop (.ofConfig benchConfig)).run
    bench

/-- How the program of that build ends, started by its name and from the file that was linked. -/
def benchStatuses (script : String) : Option ExitStatus × Option ExitStatus :=
  match benchRun script with
  | ((.ok executable, b, _), h) =>
    (((b.launch workshop (.ofDebugger none) benchConfig []).run h).1.1.toOption,
      ((b.launchAt workshop executable []).run h).1.1.toOption)
  | _ => (none, none)

/-- Under its bare name the script is built and its program not found, though it could be started
from the file; under a path with a slash its program is started. -/
theorem launch_starts_linked_bench :
    (benchRun "m.cpp").1.1.toOption = some ⟨"m-hbcxx-7"⟩ ∧
      benchStatuses "m.cpp" = (none, some (.exited 3)) ∧
      benchStatuses "/m.cpp" = (some (.exited 3), some (.exited 3)) ∧
      ∃ path, ∀ args k, (((benchRun "m.cpp").1.2.1.launch (workshop.withPath path)
        (.ofDebugger none) benchConfig args).run k).1.1.isOk = false := by
  have hexecutable : (benchRun "m.cpp").1.1.toOption = some ⟨"m-hbcxx-7"⟩ := by decide +kernel
  refine ⟨hexecutable, by decide +kernel, by decide +kernel, ?_⟩
  obtain ⟨⟨result, b, ts'⟩, h', hr⟩ := exists_run
    ((Build.ofPath workshop bench benchConfig ⟨"m.cpp"⟩).build workshop (.ofConfig benchConfig))
    bench
  have hrun : benchRun "m.cpp" = ((result, b, ts'), h') := hr
  rw [hrun] at hexecutable ⊢
  cases result with
  | error f => cases hexecutable
  | ok executable =>
    cases hexecutable
    exact ((launch_starts_linked hr).2.2.1 (by decide)).2

end Build

end CxxScript

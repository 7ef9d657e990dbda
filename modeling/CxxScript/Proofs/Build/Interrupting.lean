import CxxScript.Proofs.Build.Failing
import CxxScript.Proofs.Build.Tidying
import CxxScript.Proofs.Host.Masking

/-!
# What an interrupt does to a build

A build looks for an interrupt before it reads a line, before it compiles a source and before it
links: `Build.Looks` says when, and what the units are then. The first one that is seen ends the
build. It fails on that interrupt, nothing is scanned, compiled or linked any more, and what has
been made is removed, unless temporary files are kept. To look for an interrupt consumes none, so
what was pending is still pending when the build is over: `Build.interrupt_ends_build`.
-/

set_option autoImplicit false

namespace CxxScript

open Host

/-- Whether an event is one that is left to be written down when a build has seen an interrupt: a
report on a source file or a removal. -/
def IsAftermath (e : Event) : Prop := (∃ d, e = .diagnostic d) ∨ IsRemoval e

namespace Build

open Discovery Source

variable {m : Machine}

/-! ## Compiling unit by unit -/

section Compiling

variable {u : CompilationUnit} {before before' rest rest' us us' : List CompilationUnit}
  {ts ts' ts'' : Toolset} {h h₁ h' h'' : Host} {r : Except Failure Unit} {signal : Signal}

/-- A header is passed over. -/
theorem run_compileUnits_header (hu : u.isHeader = true)
    (hrest : (compileUnits m rest ts).run h = ((r, rest', ts'), h')) :
    (compileUnits m (u :: rest) ts).run h = ((r, u :: rest', ts'), h') := by
  rw [compileUnits, if_pos hu, run_bind_of_run hrest]
  rfl

/-- A source is compiled, and then the units behind it. -/
theorem run_compileUnits_source {u' : CompilationUnit} (hu : u.isHeader = false)
    (hpoll : (poll m).run h = (none, h₁))
    (hcompile : (ts.compile m u).run h₁ = ((.ok (), ts', u'), h'))
    (hrest : (compileUnits m rest ts').run h' = ((r, rest', ts''), h'')) :
    (compileUnits m (u :: rest) ts).run h = ((r, u' :: rest', ts''), h'') := by
  rw [compileUnits, hu, if_neg Bool.false_ne_true, run_bind_of_run hpoll]
  dsimp only
  rw [run_bind_of_run hcompile]
  dsimp only
  rw [run_bind_of_run hrest]
  rfl

/-- A source that cannot be compiled ends the compilation. -/
theorem run_compileUnits_failed {u' : CompilationUnit} {e : BuildToolError}
    (hu : u.isHeader = false) (hpoll : (poll m).run h = (none, h₁))
    (hcompile : (ts.compile m u).run h₁ = ((.error e, ts', u'), h')) :
    (compileUnits m (u :: rest) ts).run h = ((.error (.buildTool e), u' :: rest, ts'), h') := by
  rw [compileUnits, hu, if_neg Bool.false_ne_true, run_bind_of_run hpoll]
  dsimp only
  rw [run_bind_of_run hcompile]
  rfl

/-- An interrupt that is seen ends the compilation. -/
theorem run_compileUnits_interrupted (hu : u.isHeader = false)
    (hpoll : (poll m).run h = (some signal, h₁)) :
    (compileUnits m (u :: rest) ts).run h =
      ((.error (.process (.interrupted signal)), u :: rest, ts), h₁) := by
  rw [compileUnits, hu, if_neg Bool.false_ne_true, run_bind_of_run hpoll]
  rfl

/-- Where some units have been compiled, the compilation goes on behind them. -/
theorem run_compileUnits_append
    (hbefore : (compileUnits m before ts).run h = ((.ok (), before', ts'), h'))
    (hrest : (compileUnits m rest ts').run h' = ((r, rest', ts''), h'')) :
    (compileUnits m (before ++ rest) ts).run h = ((r, before' ++ rest', ts''), h'') := by
  induction before generalizing before' ts h with
  | nil =>
    cases hbefore
    exact hrest
  | cons u before ih =>
    cases hu : u.isHeader with
    | true =>
      obtain ⟨⟨r₁, before₁, ts₁⟩, h₁, hrun⟩ := exists_run (compileUnits m before ts) h
      cases (run_compileUnits_header hu hrun).symm.trans hbefore
      exact run_compileUnits_header hu (ih hrun)
    | false =>
      obtain ⟨signal?, h₁, hpoll⟩ := exists_run (poll m) h
      cases signal? with
      | some signal => cases (run_compileUnits_interrupted hu hpoll).symm.trans hbefore
      | none =>
        obtain ⟨⟨r₁, ts₁, u'⟩, h₂, hcompile⟩ := exists_run (ts.compile m u) h₁
        cases r₁ with
        | error e => cases (run_compileUnits_failed hu hpoll hcompile).symm.trans hbefore
        | ok _ =>
          obtain ⟨⟨r₂, before₂, ts₂⟩, h₃, hrun⟩ := exists_run (compileUnits m before ts₁) h₂
          cases (run_compileUnits_source hu hpoll hcompile hrun).symm.trans hbefore
          exact run_compileUnits_source hu hpoll hcompile (ih hrun)

/-- The compilation of units is cut short where, those before having been compiled, an interrupt is
seen. -/
theorem compileUnits_interrupted {f : Failure} (hsignal : f.interruptSignal? = some signal)
    (hr : (compileUnits m us ts).run h = ((.error f, us', ts'), h')) :
    ∃ before u after before' k, us = before ++ u :: after ∧ u.isHeader = false ∧
      (compileUnits m before ts).run h = ((.ok (), before', ts'), k) ∧
      (poll m).run k = (some signal, h') := by
  induction us generalizing us' ts h with
  | nil => cases hr
  | cons u rest ih =>
    cases hu : u.isHeader with
    | true =>
      obtain ⟨⟨r₁, rest₁, ts₁⟩, h₁, hrun⟩ := exists_run (compileUnits m rest ts) h
      cases (run_compileUnits_header hu hrun).symm.trans hr
      obtain ⟨before, v, after, before', k, rfl, hv, hbefore, hseen⟩ := ih hrun
      exact ⟨u :: before, v, after, u :: before', k, rfl, hv,
        run_compileUnits_header hu hbefore, hseen⟩
    | false =>
      obtain ⟨signal?, h₁, hpoll⟩ := exists_run (poll m) h
      cases signal? with
      | some seen =>
        cases (run_compileUnits_interrupted hu hpoll).symm.trans hr
        cases hsignal
        exact ⟨[], u, rest, [], h, rfl, hu, rfl, hpoll⟩
      | none =>
        obtain ⟨⟨r₁, ts₁, u'⟩, h₂, hcompile⟩ := exists_run (ts.compile m u) h₁
        cases r₁ with
        | error e =>
          cases (run_compileUnits_failed hu hpoll hcompile).symm.trans hr
          cases hsignal
        | ok _ =>
          obtain ⟨⟨r₂, rest₂, ts₂⟩, h₃, hrun⟩ := exists_run (compileUnits m rest ts₁) h₂
          cases (run_compileUnits_source hu hpoll hcompile hrun).symm.trans hr
          obtain ⟨before, v, after, before', k, rfl, hv, hbefore, hseen⟩ := ih hrun
          exact ⟨u :: before, v, after, u' :: before', k, rfl, hv,
            run_compileUnits_source hu hpoll hcompile hbefore, hseen⟩

end Compiling

/-! ## When a build looks for an interrupt -/

/-- The hosts in which a build that begins on `h` looks for an interrupt, with its units as they are
then. -/
inductive Looks (m : Machine) (b : Build) (ts : Toolset) (h : Host) :
    List CompilationUnit → Host → Prop where
  /-- Before a line of a file is read. -/
  | line {n : Nat} {vs : List Visit} {done todo : List CompilationUnit} {u : CompilationUnit}
      {ts₁ : Toolset} {k₀ k : Host} {content line : Bytes} {before after : List Bytes} {s : Scan} :
      Steps m b.config n ⟨[], b.units, ts, h⟩ vs ⟨done, u :: todo, ts₁, k₀⟩ →
      u.scanned = false → k₀.files.read m.cwd u.path = .ok content →
      rawLines content = before ++ line :: after →
      (Scan.readLines m b.config 0 before { unit := u }).run (k₀.noted (.scanning u.path)) =
        ((none, s), k) →
      Looks m b ts h (done ++ s.unit :: todo) k
  /-- Before a source is compiled. -/
  | compilation {b₁ : Build} {ts₁ ts₂ : Toolset} {h₁ k : Host} {u : CompilationUnit}
      {before before' after : List CompilationUnit} :
      (b.discover m ts).run h = ((.ok (), b₁, ts₁), h₁) → b₁.units = before ++ u :: after →
      u.isHeader = false → (compileUnits m before ts₁).run h₁ = ((.ok (), before', ts₂), k) →
      Looks m b ts h (before' ++ u :: after) k
  /-- Before the link. -/
  | link {b₁ b₂ : Build} {ts₁ ts₂ : Toolset} {h₁ k : Host} :
      (b.discover m ts).run h = ((.ok (), b₁, ts₁), h₁) →
      (b₁.compile m ts₁).run h₁ = ((.ok (), b₂, ts₂), k) → Looks m b ts h b₂.units k

/-- Other units leave a build its configuration. -/
theorem config_withUnits (b : Build) (us : List CompilationUnit) :
    (b.withUnits us).config = b.config := by
  cases us <;> rfl

/-- A build is made up of its configuration and its units. -/
theorem withUnits_of_config {b b' : Build} (hc : b'.config = b.config)
    {us : List CompilationUnit} (hne : us ≠ []) : b'.withUnits us = b.withUnits us := by
  cases us with
  | nil => exact absurd rfl hne
  | cons u us => rw [withUnits, withUnits, hc]

/-- Collecting files leaves a build its configuration. -/
theorem discover_config (b : Build) (ts : Toolset) (h : Host) :
    Leads (b.discover m ts) h fun r _ => r.2.1.config = b.config := by
  unfold discover
  exact Leads.skip fun r _ => config_withUnits b r.2.1

/-- Compiling leaves a build its configuration. -/
theorem compile_config (b : Build) (ts : Toolset) (h : Host) :
    Leads (b.compile m ts) h fun r _ => r.2.1.config = b.config := by
  unfold compile
  exact Leads.skip fun r _ => config_withUnits b r.2.1

variable {b : Build} {ts : Toolset} {h : Host} {signal : Signal}

/-- Where an interrupt is seen, the steps of a build end on it, and what is left to do is to report
what has been found wrong before; unless the build has stopped before, for want of steps. -/
theorem Looks.run_steps {units : List CompilationUnit} {k k' : Host}
    (hl : Looks m b ts h units k) (hpoll : (poll m).run k = (some signal, k')) :
    (∃ f ds ts₁, f.interruptSignal? = some signal ∧
      (b.steps m ts).run h = ((.error f, b.withUnits units, ts₁), k'.reported ds)) ∨
    ((b.steps m ts).run h).1.1 = .error .endless := by
  cases hl with
  | @line n vs done todo u ts₁ k₀ k content line before after s hsteps hu hread hlines hbefore =>
    have hreads : u.Reads m b.config k₀ content (some signal) s k' := by
      refine ⟨hread, ?_⟩
      rw [hlines, Scan.run_readLines_append hbefore, Scan.run_readLines_interrupted hpoll]
    rcases hsteps.run_visit_failed hu (CompilationUnit.run_scan_interrupted hreads) with
      hrun | hendless
    · refine .inl ⟨.directive (.interrupted (.interrupted signal)), s.diagnostics, ts₁, rfl, ?_⟩
      rw [steps, run_bind_of_run (run_discover hrun)]
      rfl
    · obtain ⟨⟨r, units', ts'⟩, h', hrun⟩ := exists_run (Discovery.run m b.config b.units ts) h
      rw [hrun] at hendless
      cases hendless
      right
      rw [steps, run_bind_of_run (run_discover hrun)]
      rfl
  | @compilation b₁ ts₁ ts₂ h₁ k u before before' after hd hunits hu hbefore =>
    have hconfig : b₁.config = b.config := (leads_of_run hd _).mp (discover_config b ts h)
    have hcut : (compileUnits m (u :: after) ts₂).run k =
        ((.error (.process (.interrupted signal)), u :: after, ts₂), k') :=
      run_compileUnits_interrupted hu hpoll
    have hrun := run_compileUnits_append hbefore hcut
    rw [← hunits] at hrun
    refine .inl ⟨.process (.interrupted signal), [], ts₂, rfl, ?_⟩
    rw [steps, run_bind_of_run hd]
    dsimp only
    rw [compile, bind_assoc, run_bind_of_run hrun, reported_nil,
      ← withUnits_of_config hconfig (by simp)]
    rfl
  | @link b₁ b₂ ts₁ ts₂ h₁ k hd hcompile =>
    have hconfig : b₂.config = b.config := ((leads_of_run hcompile _).mp
      (compile_config b₁ ts₁ h₁)).trans ((leads_of_run hd _).mp (discover_config b ts h))
    have hne : b₂.units ≠ [] := List.cons_ne_nil _ _
    refine .inl ⟨.process (.interrupted signal), [], ts₂, rfl, ?_⟩
    rw [← withUnits_of_config hconfig hne, withUnits_units, steps, run_bind_of_run hd]
    dsimp only
    rw [run_bind_of_run hcompile]
    dsimp only
    rw [Build.link, run_bind_of_run hpoll, reported_nil]
    rfl

/-- Where the steps of a build end on an interrupt, it is one that has been seen. -/
theorem exists_looks {b₁ : Build} {ts₁ : Toolset} {h₁ : Host} {f : Failure}
    (hsteps : (b.steps m ts).run h = ((.error f, b₁, ts₁), h₁))
    (hsignal : f.interruptSignal? = some signal) :
    ∃ units k k', Looks m b ts h units k ∧ (poll m).run k = (some signal, k') := by
  obtain ⟨⟨r, b₂, ts₂⟩, h₂, hd⟩ := exists_run (b.discover m ts) h
  rw [steps, run_bind_of_run hd] at hsteps
  cases r with
  | error g =>
    cases hsteps
    obtain ⟨⟨r, units, ts'⟩, h', hrun⟩ := exists_run (Discovery.run m b.config b.units ts) h
    cases (run_discover hrun).symm.trans hd
    rcases run_failure hrun with rfl | ⟨e, rfl⟩
    · cases hsignal
    · obtain ⟨n, vs, done, todo, v, hwalk, hu, hscan, -⟩ := run_failed hrun
      obtain ⟨content, s, k', hreads, -⟩ := CompilationUnit.scan_interrupted hscan hsignal
      obtain ⟨before, line, after, k, hlines, hbefore, hseen⟩ :=
        Scan.readLines_interrupted hreads.lines
      exact ⟨_, k, k', .line hwalk hu hreads.file hlines hbefore, hseen⟩
  | ok _ =>
    dsimp only at hsteps
    obtain ⟨⟨r, b₃, ts₃⟩, h₃, hcompile⟩ := exists_run (b₂.compile m ts₂) h₂
    rw [run_bind_of_run hcompile] at hsteps
    cases r with
    | error g =>
      cases hsteps
      obtain ⟨⟨r, us', ts'⟩, h', hrun⟩ := exists_run (compileUnits m b₂.units ts₂) h₂
      rw [compile, run_bind_of_run hrun] at hcompile
      cases hcompile
      obtain ⟨before, u, after, before', k, hunits, hu, hbefore, hseen⟩ :=
        compileUnits_interrupted hsignal hrun
      exact ⟨_, k, _, .compilation hd hunits hu hbefore, hseen⟩
    | ok _ =>
      dsimp only at hsteps
      obtain ⟨signal?, h₄, hpoll⟩ := exists_run (poll m) h₃
      rw [Build.link, run_bind_of_run hpoll] at hsteps
      cases signal? with
      | some seen =>
        cases hsteps
        cases hsignal
        exact ⟨_, h₃, _, .link hd hcompile, hpoll⟩
      | none =>
        obtain ⟨⟨r, ts₅, units⟩, h₅, hlink⟩ := exists_run (ts₃.link m b₃.units) h₄
        dsimp only at hsteps
        rw [run_bind_of_run hlink] at hsteps
        cases r with
        | ok executable => cases hsteps
        | error e =>
          cases hsteps
          cases hsignal

/-! ## The end of the build -/

/-- How a build ends that sees an interrupt, with the units that it has by then, and has left the
host `k` then. -/
structure Interrupted (m : Machine) (b : Build) (units : List CompilationUnit) (k : Host)
    (signal : Signal) (r : Except Failure Path) (b' : Build) (h' : Host) : Prop where
  /-- SIGINT goes before SIGQUIT. -/
  first : (k.signals.pending .interrupt = true ∧ signal = .interrupt) ∨
    (k.signals.pending .interrupt = false ∧ k.signals.pending .quit = true ∧ signal = .quit)
  failure : ∃ f, r = .error f ∧ f.interruptSignal? = some signal ∧ f.exitCode.value = 130
  /-- All that is left to do is to report what has been found wrong before, and to clear up. -/
  course : ∃ ds, ((b.withUnits units).clearUp m).run (k.reported ds) = (b', h')
  /-- So no file is scanned and no program is started any more. -/
  quiet : Wrote IsAftermath k h'
  /-- No line is read, no source compiled and nothing linked, before which the build would have to
  look for an interrupt again. -/
  polls : h'.polls = k.polls
  /-- What is pending stays so, and is delivered when the mask is lifted. -/
  signals : h'.signals = k.signals
  delivered : ∀ s, SignalSet.interrupts s = true → k.signals.pending s = true →
    ∀ mask : SignalSet, mask s = false → s ∈ (h'.signals.setMask mask).delivered
  /-- No unit has a copy, an object or an executable that was not asked for. -/
  tidy : b.config.saveTemps = false →
    b'.IsTidy ∧ (b.config.executable = none → b'.primary.executable? = none)
  /-- Those that there were are gone, or what has kept them is told. -/
  disposed : b.config.saveTemps = false → ∀ p ∈ (b.withUnits units).temporaries,
    Disposed m p k h'

/-- Removing all that a build has made leaves it without copies, objects and an executable. -/
theorem clearUp_tidies {b b' : Build} {k h' : Host} (hsave : b.config.saveTemps = false)
    (hc : (b.clearUp m).run k = (b', h')) :
    b'.IsTidy ∧ (b.config.executable = none → b'.primary.executable? = none) := by
  obtain ⟨-, hprimary, hothers⟩ := (leads_of_run hc _).mp (clearUp_result b k)
  have hcleaned := CompilationUnit.cleaned_of_discarding hsave
  refine ⟨fun u hu => ?_, fun hnone => ?_⟩
  · rcases List.mem_cons.mp hu with rfl | hu
    · rw [hprimary, hcleaned]
      unfold CompilationUnit.withoutExecutable
      split <;> exact ⟨rfl, rfl⟩
    · rw [hothers] at hu
      obtain ⟨v, -, rfl⟩ := List.mem_map.mp hu
      rw [hcleaned]
      exact ⟨rfl, rfl⟩
  · rw [hprimary, CompilationUnit.withoutExecutable, Config.buildsOnly, hnone, hsave]
    rfl

/-- What clearing up after an interrupt does. -/
theorem interrupted_of_clearUp {units : List CompilationUnit} {k k' h' : Host} {b' : Build}
    {f : Failure} {ds : List Diagnostic} (hpoll : (poll m).run k = (some signal, k'))
    (hsignal : f.interruptSignal? = some signal)
    (hc : ((b.withUnits units).clearUp m).run (k'.reported ds) = (b', h')) :
    Interrupted m b units k' signal (.error f) b' h' := by
  have hconfig := config_withUnits b units
  have hreported : Wrote IsAftermath k' (k'.reported ds) := by
    refine ⟨ds.map .diagnostic, rfl, fun e he => ?_⟩
    obtain ⟨d, -, rfl⟩ := List.mem_map.mp he
    exact .inl ⟨d, rfl⟩
  obtain ⟨hwrote, hsignals⟩ := (leads_of_run hc _).mp (clearUp_clears (removalFrame m) _ _)
  have hsignals : h'.signals = k'.signals := hsignals
  exact
    { first := Signals.pendingInterrupt?_eq_some (poll_pending hpoll)
      failure := ⟨f, rfl, hsignal, by rw [Failure.exitCode, hsignal]; rfl⟩
      course := ⟨ds, hc⟩
      quiet := hreported.trans (hwrote.mono fun _ => .inr)
      polls := (leads_of_run hc _).mp (clearUp_clears (pollFrame m) _ _)
      signals := hsignals
      delivered := fun s hs hpending mask hmask => by
        rw [hsignals]
        exact Signals.mem_delivered_setMask hs hpending hmask
      tidy := fun hsave => by
        rw [← hconfig] at hsave ⊢
        exact clearUp_tidies hsave hc
      disposed := fun hsave p hp => by
        rw [← hconfig] at hsave
        exact ((leads_of_run hc _).mp (clearUp_disposes _ hsave _) p hp).after hreported }

/-- A build that fails has failed in one of its steps. -/
theorem steps_of_build_error {b' : Build} {ts' : Toolset} {h' : Host} {f : Failure}
    (hb : (b.build m ts).run h = ((.error f, b', ts'), h')) :
    ∃ b₁ ts₁ h₁, (b.steps m ts).run h = ((.error f, b₁, ts₁), h₁) := by
  obtain ⟨⟨r, b₁, ts₁⟩, h₁, hsteps⟩ := exists_run (b.steps m ts) h
  cases r with
  | error g =>
    obtain ⟨b₂, h₂, hc⟩ := exists_run (b₁.clearUp m) h₁
    cases (run_build_of_error hsteps hc).symm.trans hb
    exact ⟨_, _, _, hsteps⟩
  | ok executable =>
    obtain ⟨b₂, h₂, hclean⟩ := exists_run (b₁.cleanup m) h₁
    rw [build, run_bind_of_run hsteps, run_bind_of_run hclean] at hb
    cases hb

/-- A build does not stop for want of steps where package queries leave the files alone. -/
theorem build_ends (hq : Package.KeepsFiles m b.config.pkgConfig) (ts : Toolset) (h : Host) :
    Leads (b.build m ts) h fun r _ => r.1 ≠ .error .endless := by
  obtain ⟨⟨d, units, ts₁⟩, h₁, hrun⟩ := exists_run (Discovery.run m b.config b.units ts) h
  have hd := run_discover hrun
  cases d with
  | error f =>
    obtain ⟨b₂, h₂, hc⟩ := exists_run ((b.withUnits units).clearUp m) h₁
    rw [leads_of_run (run_build_of_failed hd hc)]
    obtain ⟨vs, r, h', hends, hcourse⟩ := run_ends hq b.units ts h
    cases hends.symm.trans hrun
    cases hcourse
    exact fun hendless => by cases hendless
  | ok _ =>
    refine (build_failure hd).mono fun r _ hfailure hendless => ?_
    rcases hfailure _ hendless with ⟨cause, hf⟩ | ⟨signal, hf⟩ <;> cases hf

/-- A build that comes to an end fails on an interrupt just when it sees one, before it reads a
line, compiles a source or links. Then nothing more is done than to report and to clear up: the
copies and objects, and the executable unless it was asked for, are removed, unless temporary files
are kept, and what was pending is still pending. Where programs are modest and the removals can go
well, no regular file has come but those that are meant to stay. -/
theorem interrupt_ends_build {b b' : Build} {ts ts' : Toolset} {h h' : Host}
    {r : Except Failure Path} (hb : (b.build m ts).run h = ((r, b', ts'), h')) :
    (Package.KeepsFiles m b.config.pkgConfig → r ≠ .error .endless) ∧
      (∀ f signal, r = .error f → f.interruptSignal? = some signal →
        ∃ units k k', Looks m b ts h units k ∧ (poll m).run k = (some signal, k')) ∧
      (r ≠ .error .endless → ∀ units k k' signal, Looks m b ts h units k →
        (poll m).run k = (some signal, k') → Interrupted m b units k' signal r b' h' ∧
          ∀ base, Reached m b.config base b h → ts.config = b.config →
            b.config.saveTemps = false → b.config.executable = none →
            base.files.Clear m.pid → Wrote (Event.IsModest m b.config) base h' →
            base.files.Adds m.cwd b.config.kept h'.files) := by
  refine ⟨fun hq => (leads_of_run hb _).mp (build_ends hq ts h), fun f signal hr hsignal => ?_,
    fun hends units k k' signal hlooks hpoll => ?_⟩
  · subst hr
    obtain ⟨b₁, ts₁, h₁, hsteps⟩ := steps_of_build_error hb
    exact exists_looks hsteps hsignal
  · rcases hlooks.run_steps hpoll with ⟨f, ds, ts₁, hsignal, hsteps⟩ | hendless
    · obtain ⟨b₂, h₂, hc⟩ := exists_run ((b.withUnits units).clearUp m) (k'.reported ds)
      cases (run_build_of_error hsteps hc).symm.trans hb
      refine ⟨interrupted_of_clearUp hpoll hsignal hc, ?_⟩
      intro base hreached hcfg hsave hnone hclear hwrote
      have ha := hreached.accounted hsave hnone
      obtain ⟨ha', htidy, hexecutable⟩ :=
        (leads_of_run hb _).mp (build_accounted hsave hnone hcfg ha)
      have hl := ha'.leaves_of_tidy htidy
      rw [hexecutable] at hl
      exact hl.2 hwrote hclear
    · obtain ⟨⟨r₁, b₁, ts₁⟩, h₁, hsteps⟩ := exists_run (b.steps m ts) h
      rw [hsteps] at hendless
      cases hendless
      obtain ⟨b₂, h₂, hc⟩ := exists_run (b₁.clearUp m) h₁
      cases (run_build_of_error hsteps hc).symm.trans hb
      exact absurd rfl hends

/-- The workshop, where both interrupts arrive before the link of a source of two lines. -/
def alarmed : Machine :=
  { workshop with arrivals := fun n => if n = 3 then [.quit, .interrupt] else [] }

/-- A host that blocks interrupts, with a script that needs a copy. -/
def dock : Host where
  files :=
    { entries := [
        (["bin"], .directory), (["bin", "cc"], .file [] true),
        (["m.cpp"], .file (Text.Utf8.encode "#!/usr/bin/env hbcxx\nint main();\n") false)] }
  signals := Signals.initial.blockInterrupts

/-- The build of that script. -/
def dockBuild (cfg : Config) : Build := .ofPath alarmed dock cfg ⟨"m.cpp"⟩

/-- Building it on a machine. -/
def dockRun (m : Machine) (cfg : Config) : (Except Failure Path × Build × Toolset) × Host :=
  ((dockBuild cfg).build m (.ofConfig cfg)).run dock

/-- Collecting its files. -/
def dockCollected : (Except Failure Unit × Build × Toolset) × Host :=
  ((dockBuild benchConfig).discover alarmed (.ofConfig benchConfig)).run dock

/-- Compiling it then. -/
def dockCompiled : (Except Failure Unit × Build × Toolset) × Host :=
  (dockCollected.1.2.1.compile alarmed dockCollected.1.2.2).run dockCollected.2

/-- The build of the script sees both interrupts before the link. It fails on SIGINT, its copy and
its object are removed, and both interrupts are still pending. -/
theorem interrupt_ends_build_dock :
    (dockRun alarmed benchConfig).1.1 = .error (.process (.interrupted .interrupt)) ∧
      ∃ k, Interrupted alarmed (dockBuild benchConfig) dockCompiled.1.2.1.units k .interrupt
        (dockRun alarmed benchConfig).1.1 (dockRun alarmed benchConfig).1.2.1
        (dockRun alarmed benchConfig).2 ∧
      k.signals.pending .quit = true ∧
      ((dockBuild benchConfig).withUnits dockCompiled.1.2.1.units).temporaries =
        [⟨"m-hbcxx-7.cpp"⟩, ⟨"m-hbcxx-7.o"⟩] ∧
      (dockRun alarmed benchConfig).2.files.entries.map (·.1) =
        [["bin"], ["bin", "cc"], ["m.cpp"]] := by
  have herror : (dockRun alarmed benchConfig).1.1 =
      .error (.process (.interrupted .interrupt)) := by decide +kernel
  have hcollected : dockCollected.1.1 = .ok () := by decide +kernel
  have hcompiled : dockCompiled.1.1 = .ok () := by decide +kernel
  have hseen : ((poll alarmed).run dockCompiled.2).1 = some .interrupt := by decide +kernel
  have hquit : ((poll alarmed).run dockCompiled.2).2.signals.pending .quit = true := by
    decide +kernel
  refine ⟨herror, ((poll alarmed).run dockCompiled.2).2, ?_, hquit, by decide +kernel,
    by decide +kernel⟩
  obtain ⟨⟨⟨r, b', ts'⟩, h'⟩, hb⟩ : ∃ x, dockRun alarmed benchConfig = x := ⟨_, rfl⟩
  obtain ⟨⟨⟨r₁, b₁, ts₁⟩, h₁⟩, hd⟩ : ∃ x, dockCollected = x := ⟨_, rfl⟩
  obtain ⟨⟨⟨r₂, b₂, ts₂⟩, k⟩, hc⟩ : ∃ x, dockCompiled = x := ⟨_, rfl⟩
  rw [hd] at hcollected
  rw [hc] at hcompiled hseen ⊢
  rw [hb] at herror ⊢
  cases hcollected
  cases hcompiled
  have hcompile : (b₁.compile alarmed ts₁).run h₁ = ((.ok (), b₂, ts₂), k) := by
    rw [← hc, dockCompiled, hd]
  have hends : r ≠ .error .endless := by
    rintro rfl
    cases herror
  exact ((interrupt_ends_build hb).2.2 hends _ _ _ _ (.link hd hcompile) (Prod.ext hseen rfl)).1

/-- The same machine with a compiler that makes a directory of what it is told to write. -/
def jammed : Machine :=
  { alarmed with
    execute := fun s fs =>
      match s.argv.dropWhile (· ≠ "-o") with
      | _ :: target :: _ => .ok { status := .exited 0, files := fs.set [target] .directory }
      | _ => .ok { status := .exited 3, files := fs } }

/-- An interrupted build need not leave nothing behind: where temporary files are kept the copy and
the object stay, and where an object cannot be removed that stays. -/
theorem interrupted_build_leaves :
    ((dockRun alarmed { benchConfig with saveTemps := true }).1.1 =
        .error (.process (.interrupted .interrupt)) ∧
      (dockRun alarmed { benchConfig with saveTemps := true }).2.files.isFile alarmed.cwd
        ⟨"m-hbcxx-7.cpp"⟩ = true ∧
      (dockRun alarmed { benchConfig with saveTemps := true }).2.files.isFile alarmed.cwd
        ⟨"m-hbcxx-7.o"⟩ = true) ∧
    (dockRun jammed benchConfig).1.1 = .error (.process (.interrupted .interrupt)) ∧
      (dockRun jammed benchConfig).2.files.isDirectory jammed.cwd ⟨"m-hbcxx-7.o"⟩ = true := by
  refine ⟨⟨?_, ?_, ?_⟩, ?_, ?_⟩ <;> decide +kernel

end Build

end CxxScript

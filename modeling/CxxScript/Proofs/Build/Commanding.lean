import CxxScript.Proofs.Build.Retrying
import CxxScript.Proofs.Build.Running
import CxxScript.Proofs.Build.Tidying

/-!
# What the compiler is told

Compiling runs one command for each source, and linking one more; the objects that are linked are
those that were compiled, in order, though each of the two finds their places for itself. That holds
of any build, however it has come about, `Reached.isCommanded`. All these commands begin alike and
hold the shared flags as one run, so the flags of a unit reach each of them as soon as they are in
the toolset. They are, as soon as the unit has been scanned, but for one that an earlier collection
has scanned and not taken in: `commands_agree`.
-/

set_option autoImplicit false

namespace CxxScript

open Host Discovery

variable {m : Machine} {cfg : Config}

/-! ## What a collection leaves -/

namespace Discovery

/-- The shared flags that there were stay in front, and those of the visited units come to them. -/
theorem foldl_taking_flags (vs : List Visit) (ts : Toolset) :
    ts.flags <+: (vs.foldl taking ts).flags ∧
      ∀ v ∈ vs, Toolset.realFlags v.result.flags <:+: (vs.foldl taking ts).flags := by
  induction vs generalizing ts with
  | nil => exact ⟨List.prefix_rfl, fun v hv => by cases hv⟩
  | cons v rest ih =>
    obtain ⟨hfront, hrest⟩ := ih (taking ts v)
    have hflags : (taking ts v).flags =
        (Flags.pushUnique ts.flags (Toolset.realFlags v.result.flags)).1 := by
      rw [taking, Toolset.pushed_normal]
    rw [hflags] at hfront
    rw [List.foldl_cons]
    refine ⟨(Flags.prefix_pushUnique _ _).trans hfront, List.forall_mem_cons.mpr ⟨?_, hrest⟩⟩
    exact (Flags.infix_pushUnique _ _).trans hfront.isInfix

end Discovery

namespace CompilationUnit

/-- The sources among some units, in order. -/
def sources (us : List CompilationUnit) : List CompilationUnit := us.filter fun u => !u.isHeader

/-- A header is passed over. -/
theorem sources_header {u : CompilationUnit} (h : u.isHeader = true) (us : List CompilationUnit) :
    sources (u :: us) = sources us := List.filter_cons_of_neg (by simp [h])

/-- A source counts. -/
theorem sources_source {u : CompilationUnit} (h : u.isHeader = false) (us : List CompilationUnit) :
    sources (u :: us) = u :: sources us := List.filter_cons_of_pos (by simp [h])

end CompilationUnit

open CompilationUnit

namespace Toolset

/-! ## Compiling -/

/-- To perform a command is to run it and no other. -/
theorem perform_ran (m : Machine) (c : Command) (h : Host) :
    Leads (perform m c) h fun r h' => Ran [c] h h' ∧ ∀ e, r = .error e → e.isMisuse = false := by
  unfold perform
  refine Leads.bind (ran_run m c h) fun r h₁ hran => ?_
  cases r with
  | error cause =>
    refine ⟨hran, fun e he => ?_⟩
    cases he
    rfl
  | ok status =>
    dsimp only
    split
    · exact ⟨hran, fun e he => by cases he⟩
    · refine ⟨hran, fun e he => ?_⟩
      cases he
      rfl

/-- Compiling a unit that goes well has run one command, and the unit has its object then; what was
run before is by which the compiler was chosen. A source can be compiled. -/
theorem compile_ran (m : Machine) (ts : Toolset) (u : CompilationUnit) (h : Host) :
    Leads (ts.compile m u) h fun r h' =>
      (u.isHeader = false → ∀ e, r.1 = .error e → e.isMisuse = false) ∧
      (r.1 = .ok () → ∃ words choosing object c, Begins ts words choosing r.2.1 ∧
        r.2.2 = { u with object? := some object } ∧ Ran (choosing ++ [c]) h h' ∧
        c.words = compileWords words ts u object) := by
  unfold compile
  refine Leads.bind (compileCommand_ran m ts u h) fun r h₁ hr => ?_
  obtain ⟨hmisuse, hok⟩ := hr
  obtain ⟨r, ts₁, u₁⟩ := r
  cases r with
  | error e =>
    refine ⟨fun hsource e' he => ?_, fun h => by cases h⟩
    cases he
    exact hmisuse hsource e rfl
  | ok c =>
    obtain ⟨words, choosing, object, -, hb, hu₁, hran, hwords⟩ := hok c rfl
    refine Leads.bind (perform_ran m c h₁) fun r h₂ hr => ?_
    exact ⟨fun _ => hr.2, fun _ => ⟨words, choosing, object, c, hb, hu₁, hran.trans hr.1, hwords⟩⟩

end Toolset

namespace Build

open Toolset

/-- The objects of the sources of some units, and the commands that have compiled them, in their
order; the units are left with their objects. -/
structure Compiled (words : List String) (ts : Toolset) (us : List CompilationUnit)
    (objects : List Path) (compiles : List Command) (us' : List CompilationUnit) : Prop where
  length : objects.length = (sources us).length
  commands : compiles.map Command.words =
    List.zipWith (compileWords words ts) (sources us) objects
  objects : (sources us').map (·.object?) = objects.map some

/-- A header in front changes nothing. -/
theorem Compiled.header {words : List String} {ts : Toolset} {us us' : List CompilationUnit}
    {objects : List Path} {compiles : List Command} (hc : Compiled words ts us objects compiles us')
    {u : CompilationUnit} (hu : u.isHeader = true) :
    Compiled words ts (u :: us) objects compiles (u :: us') := by
  obtain ⟨hlength, hcommands, hobjects⟩ := hc
  refine ⟨?_, ?_, ?_⟩
  · rw [hlength, sources_header hu]
  · rw [hcommands, sources_header hu]
  · rw [sources_header hu, hobjects]

/-- A source in front is compiled first. -/
theorem Compiled.source {words : List String} {ts : Toolset} {us us' : List CompilationUnit}
    {objects : List Path} {compiles : List Command} (hc : Compiled words ts us objects compiles us')
    {u : CompilationUnit} (hu : u.isHeader = false) {object : Path} {c : Command}
    (hwords : c.words = compileWords words ts u object) :
    Compiled words ts (u :: us) (object :: objects) (c :: compiles)
      ({ u with object? := some object } :: us') := by
  obtain ⟨hlength, hcommands, hobjects⟩ := hc
  have hu' : CompilationUnit.isHeader { u with object? := some object } = false := hu
  refine ⟨?_, ?_, ?_⟩
  · rw [sources_source hu, List.length_cons, List.length_cons, hlength]
  · rw [sources_source hu, List.map_cons, List.zipWith_cons_cons, hwords, hcommands]
  · rw [sources_source hu', List.map_cons, List.map_cons, hobjects]

/-- Units are never misused for being compiled. -/
theorem compileUnits_error (m : Machine) (us : List CompilationUnit) (ts : Toolset) (h : Host) :
    Leads (compileUnits m us ts) h fun r _ =>
      ∀ e, r.1 = .error (.buildTool e) → e.isMisuse = false := by
  induction us generalizing ts h with
  | nil =>
    intro e he
    cases he
  | cons u rest ih =>
    unfold compileUnits
    split
    · exact Leads.bind (ih ts h) fun _ _ hr => hr
    · next hu =>
      have hsource : u.isHeader = false := Bool.eq_false_iff.mpr hu
      refine Leads.skip fun signal? h₁ => ?_
      cases signal? with
      | some signal =>
        intro e he
        cases he
      | none =>
        refine Leads.bind (compile_ran m ts u h₁) fun r h₂ hr => ?_
        obtain ⟨r, ts₂, u₂⟩ := r
        cases r with
        | error e =>
          intro e' he
          cases he
          exact hr.1 hsource e rfl
        | ok _ => exact Leads.bind (ih ts₂ h₂) fun _ _ hr => hr

/-- Once the compiler is chosen, compiling units that goes well runs one command for each source, in
order, and leaves the toolset as it is. -/
theorem compileUnits_compiled {ts : Toolset} {words : List String}
    (hchosen : ts.chosen? = some words) (m : Machine) (us : List CompilationUnit) (h : Host) :
    Leads (compileUnits m us ts) h fun r h' => r.1 = .ok () → r.2.2 = ts ∧
      ∃ objects compiles, Ran compiles h h' ∧ Compiled words ts us objects compiles r.2.1 := by
  have hnothing : ∀ h : Host, Ran [] h h := fun h => ⟨[], (List.append_nil _).symm, rfl⟩
  induction us generalizing h with
  | nil => exact fun _ => ⟨rfl, [], [], hnothing h, rfl, rfl, rfl⟩
  | cons u rest ih =>
    unfold compileUnits
    split
    · next hu =>
      refine Leads.bind (ih h) fun r h₁ hrest => fun hok => ?_
      obtain ⟨hts, objects, compiles, hran, hcompiled⟩ := hrest hok
      exact ⟨hts, objects, compiles, hran, hcompiled.header hu⟩
    · next hu =>
      have hsource : u.isHeader = false := Bool.eq_false_iff.mpr hu
      refine Leads.bind (P := fun _ h₁ => h₁.events = h.events) rfl fun signal? h₁ he => ?_
      cases signal? with
      | some signal =>
        intro hok
        cases hok
      | none =>
        refine Leads.bind (compile_ran m ts u h₁) fun r h₂ hr => ?_
        obtain ⟨r, ts₂, u₂⟩ := r
        cases r with
        | error e =>
          intro hok
          cases hok
        | ok _ =>
          obtain ⟨ws, choosing, object, c, hb, hu₂, hran, hwords⟩ := hr.2 rfl
          obtain ⟨rfl, rfl⟩ := hb.settled words hchosen
          -- The choice was there before, so the toolset is the one it was.
          have hts₂ : ts₂ = ts := by
            have hts₂ : ts₂ = { ts with chosen? := some words } := hb.toolset
            rw [hts₂, ← hchosen]
          have hu₂ : u₂ = { u with object? := some object } := hu₂
          subst hts₂ hu₂
          refine Leads.bind (ih h₂) fun r h₃ hrest => fun hok => ?_
          obtain ⟨hts, objects, compiles, hrun, hcompiled⟩ := hrest hok
          exact ⟨hts, object :: objects, c :: compiles, (Ran.of_events he hran).trans hrun,
            hcompiled.source hsource hwords⟩

/-- Compiling units of which the first is a source chooses the compiler for it, unless there is a
choice, and runs one command for each source. -/
theorem compileUnits_ran (m : Machine) {u : CompilationUnit} (hu : u.isHeader = false)
    (rest : List CompilationUnit) (ts : Toolset) (h : Host) :
    Leads (compileUnits m (u :: rest) ts) h fun r h' => r.1 = .ok () →
      ∃ words choosing objects compiles, Begins ts words choosing r.2.2 ∧
        Ran (choosing ++ compiles) h h' ∧ Compiled words ts (u :: rest) objects compiles r.2.1 := by
  unfold compileUnits
  rw [hu, if_neg Bool.false_ne_true]
  refine Leads.bind (P := fun _ h₁ => h₁.events = h.events) rfl fun signal? h₁ he => ?_
  cases signal? with
  | some signal =>
    intro hok
    cases hok
  | none =>
    refine Leads.bind (compile_ran m ts u h₁) fun r h₂ hr => ?_
    obtain ⟨r, ts₂, u₂⟩ := r
    cases r with
    | error e =>
      intro hok
      cases hok
    | ok _ =>
      obtain ⟨words, choosing, object, c, hb, hu₂, hran, hwords⟩ := hr.2 rfl
      have hts₂ : ts₂ = { ts with chosen? := some words } := hb.toolset
      have hu₂ : u₂ = { u with object? := some object } := hu₂
      have hchosen : ts₂.chosen? = some words := by rw [hts₂]
      refine Leads.bind (compileUnits_compiled hchosen m rest h₂) fun r h₃ hrest => fun hok => ?_
      obtain ⟨hts, objects, compiles, hrun, hcompiled⟩ := hrest hok
      have hcompiled' : Compiled words ts rest objects compiles r.2.1 := by
        rw [hts₂] at hcompiled
        exact ⟨hcompiled.length, hcompiled.commands, hcompiled.objects⟩
      refine ⟨words, choosing, object :: objects, c :: compiles, ?_, ?_, ?_⟩
      · have hts : r.2.2 = ts₂ := hts
        show Begins ts words choosing r.2.2
        rw [hts]
        exact hb
      · have hall := (Ran.of_events he hran).trans hrun
        rwa [List.append_assoc] at hall
      · show Compiled words ts (u :: rest) _ _ (u₂ :: r.2.1)
        rw [hu₂]
        exact hcompiled'.source hu hwords

end Build

namespace Toolset

/-! ## Linking -/

/-- Units that have their objects give them, and stay as they are. -/
theorem run_objects {us : List CompilationUnit} {paths : List Path}
    (hmade : (sources us).map (·.object?) = paths.map some) (m : Machine) (cfg : Config)
    (h : Host) : (objects m cfg us).run h = ((.ok paths, us), h) := by
  induction us generalizing paths with
  | nil =>
    obtain rfl : paths = [] := List.map_eq_nil_iff.mp hmade.symm
    rfl
  | cons u rest ih =>
    unfold objects
    cases hu : u.isHeader with
    | true =>
      rw [sources_header hu] at hmade
      rw [if_pos rfl, run_bind_of_run (ih hmade)]
      rfl
    | false =>
      rw [sources_source hu] at hmade
      cases paths with
      | nil => cases hmade
      | cons path paths =>
        obtain ⟨hpath, hrest⟩ := List.cons.inj hmade
        have hobject : (u.object m cfg).run h = ((.ok path, u), h) := by
          have hpath : u.object? = some path := hpath
          rw [object, hu, if_neg Bool.false_ne_true, hpath]
          rfl
        rw [if_neg Bool.false_ne_true, run_bind_of_run hobject]
        dsimp only
        rw [run_bind_of_run (ih hrest)]
        rfl

/-- Objects are not found for want of a place alone. -/
theorem objects_error (m : Machine) (cfg : Config) (us : List CompilationUnit) (h : Host) :
    Leads (objects m cfg us) h fun r _ => ∀ e, r.1 = .error e → ∃ cause, e = .location cause := by
  induction us generalizing h with
  | nil =>
    intro e he
    cases he
  | cons u rest ih =>
    unfold objects
    split
    · exact Leads.bind (ih h) fun _ _ hr => hr
    · next hu =>
      refine Leads.bind (object_made u h) fun r h₁ hr => ?_
      obtain ⟨r, u₁⟩ := r
      cases r with
      | error cause =>
        intro e he
        cases he
        exact (hr.error _ rfl).2 (Bool.eq_false_iff.mpr hu)
      | ok path =>
        refine Leads.bind (ih h₁) fun r h₂ hrest => ?_
        obtain ⟨r, us₂⟩ := r
        cases r with
        | error e =>
          intro e' he
          cases he
          exact hrest e rfl
        | ok paths =>
          intro e he
          cases he

/-- The executable for a link is that of the first unit, if it is a source; the objects are those
that the sources have. No command is run for that, and it fails for want of a place alone. -/
theorem linkPlaces_made (m : Machine) (cfg : Config) {u : CompilationUnit}
    (hu : u.isHeader = false) (rest : List CompilationUnit) (h : Host) :
    Leads (linkPlaces m cfg (u :: rest)) h fun r h' =>
      (∀ e, r.1 = .error e → e.isMisuse = false) ∧
      ∀ objects, (sources (u :: rest)).map (·.object?) = objects.map some →
        ∀ p paths, r.1 = .ok (p, paths) → paths = objects ∧ Ran [] h h' ∧
          r.2 = { u with executable? := some p } :: rest := by
  unfold linkPlaces
  rw [hu, if_neg Bool.false_ne_true]
  refine Leads.bind (executable_made u h) fun r h₁ hr => ?_
  obtain ⟨r, u₁⟩ := r
  cases r with
  | error cause =>
    refine ⟨fun e he => ?_, fun objects _ p paths hp => by cases hp⟩
    obtain ⟨place, rfl⟩ := (hr.error cause rfl).2 hu
    cases he
    rfl
  | ok executable =>
    have hu₁ : u₁ = { u with executable? := some executable } := hr.ok executable rfl
    obtain ⟨⟨r, units⟩, h₂, hobjects⟩ := exists_run (objects m cfg (u₁ :: rest)) h₁
    have hplaced := (leads_of_run hobjects _).mp (objects_error m cfg (u₁ :: rest) h₁)
    refine (leads_bind _ _ _ _).mpr ((leads_of_run hobjects _).mpr ?_)
    cases r with
    | error cause =>
      refine ⟨fun e he => ?_, fun objects _ p paths hp => by cases hp⟩
      obtain ⟨place, rfl⟩ := hplaced cause rfl
      cases he
      rfl
    | ok paths =>
      refine ⟨fun e he => (by cases he), fun objects hobjects' p paths' hp => ?_⟩
      cases hp
      have hsame : (sources (u₁ :: rest)).map (·.object?) = objects.map some := by
        rw [hu₁, sources_source (by exact hu), ← hobjects', sources_source hu]
        rfl
      cases (run_objects hsame m cfg h₁).symm.trans hobjects
      refine ⟨rfl, ran_nil hr.wrote ?_, ?_⟩
      · rintro e ⟨p, place, rfl⟩
        rfl
      · rw [← hu₁]
        rfl

/-- Units that keep what they have keep their kinds. -/
theorem kinds_of_keepAll {us us' : List CompilationUnit} (h : KeepAll us us') :
    us'.map (·.kind) = us.map (·.kind) := by
  induction h with
  | nil => rfl
  | cons hu _ ih => rw [List.map_cons, List.map_cons, hu.kind, ih]

/-- Units that are asked for an executable and their objects keep their kinds. -/
theorem linkPlaces_kinds (us : List CompilationUnit) (h : Host) :
    Leads (linkPlaces m cfg us) h fun r _ => r.2.map (·.kind) = us.map (·.kind) := by
  induction us generalizing h with
  | nil => exact rfl
  | cons u rest ih =>
    unfold linkPlaces
    split
    · exact Leads.bind (ih h) fun r h₁ hrest => congrArg (u.kind :: ·) hrest
    · refine Leads.bind (executable_made u h) fun r h₁ hr => ?_
      obtain ⟨r, u₁⟩ := r
      cases r with
      | error cause =>
        have hu₁ : u₁ = u := (hr.error cause rfl).1
        exact congrArg (fun v => v.kind :: rest.map (·.kind)) hu₁
      | ok executable =>
        have hu₁ : u₁ = { u with executable? := some executable } := hr.ok executable rfl
        refine Leads.bind (keepAll_objects (u₁ :: rest) h₁) fun r h₂ hkeep => ?_
        obtain ⟨r, units⟩ := r
        have hkinds : units.map (·.kind) = (u :: rest).map (·.kind) := by
          have hkinds : units.map (·.kind) = (u₁ :: rest).map (·.kind) := kinds_of_keepAll hkeep
          rw [hkinds, hu₁]
          rfl
        cases r with
        | error cause => exact hkinds
        | ok paths => exact hkinds

/-- Linking units of which the first is a source is no misuse. Once the compiler is chosen, and each
source has its object, a link that goes well has run one command. -/
theorem link_ran (m : Machine) (ts : Toolset) {u : CompilationUnit} (hu : u.isHeader = false)
    (rest : List CompilationUnit) (h : Host) :
    Leads (ts.link m (u :: rest)) h fun r h' =>
      (∀ e, r.1 = .error e → e.isMisuse = false) ∧
      ∀ words objects, ts.chosen? = some words →
        (sources (u :: rest)).map (·.object?) = objects.map some →
        ∀ p, r.1 = .ok p → r.2.1 = ts ∧ r.2.2 = { u with executable? := some p } :: rest ∧
          ∃ c, Ran [c] h h' ∧ c.words = linkWords words ts p objects := by
  have hcommand : Leads (ts.linkCommand m (u :: rest)) h fun r h' =>
      (∀ e, r.1 = .error e → e.isMisuse = false) ∧
      ∀ words objects, ts.chosen? = some words →
        (sources (u :: rest)).map (·.object?) = objects.map some →
        ∀ c p, r.1 = .ok (c, p) → r.2.1 = ts ∧ r.2.2 = { u with executable? := some p } :: rest ∧
          Ran [] h h' ∧ c.words = linkWords words ts p objects := by
    unfold linkCommand
    refine Leads.bind (linkPlaces_made m ts.config hu rest h) fun r h₁ hr => ?_
    obtain ⟨hmisuse, hmade⟩ := hr
    obtain ⟨r, units⟩ := r
    cases r with
    | error e =>
      refine ⟨fun e' he => ?_, fun words objects _ _ c p hc => by cases hc⟩
      cases he
      exact hmisuse e rfl
    | ok places =>
      obtain ⟨executable, paths⟩ := places
      refine Leads.bind (base_begins m ts h₁) fun r h₂ hr => ?_
      obtain ⟨herror, hbegins⟩ := hr
      obtain ⟨r, ts₂⟩ := r
      cases r with
      | error e =>
        refine ⟨fun e' he => ?_, fun words objects _ _ c p hc => by cases hc⟩
        cases he
        exact not_misuse_of_base (herror e rfl)
      | ok c =>
        refine ⟨fun e he => (by cases he), fun words objects hchosen hobjects c' p hc => ?_⟩
        cases hc
        obtain ⟨rfl, hran, hunits⟩ := hmade objects hobjects executable paths rfl
        obtain ⟨ws, choosing, hwords, -, hb, hrun⟩ := hbegins c rfl
        obtain ⟨rfl, rfl⟩ := hb.settled words hchosen
        have hts₂ : ts₂ = ts := by
          have hts₂ : ts₂ = { ts with chosen? := some words } := hb.toolset
          rw [hts₂, ← hchosen]
        refine ⟨hts₂, hunits, hran.trans hrun, ?_⟩
        rw [words_withArgs, hwords, hts₂]
        simp [linkWords, linkArgs]
  unfold link
  refine Leads.bind hcommand fun r h₁ hr => ?_
  obtain ⟨hmisuse, hok⟩ := hr
  obtain ⟨r, ts₁, units⟩ := r
  cases r with
  | error e =>
    refine ⟨fun e' he => ?_, fun words objects _ _ p hp => by cases hp⟩
    cases he
    exact hmisuse e rfl
  | ok command =>
    obtain ⟨c, executable⟩ := command
    refine Leads.bind (perform_ran m c h₁) fun r h₂ hr => ?_
    cases r with
    | error e =>
      refine ⟨fun e' he => ?_, fun words objects _ _ p hp => by cases hp⟩
      cases he
      exact hr.2 e rfl
    | ok _ =>
      refine ⟨fun e he => (by cases he), fun words objects hchosen hobjects p hp => ?_⟩
      cases hp
      obtain ⟨hts, hunits, hran, hwords⟩ := hok words objects hchosen hobjects c executable rfl
      exact ⟨hts, hunits, c, hran.trans hr.1, hwords⟩

end Toolset

namespace Build

open Toolset

/-! ## A build that is compiled and linked -/

/-- What has been run for a build that has been compiled, between `h₁` and `h₂`, and then linked,
between `h₃` and `h₄`. -/
structure Commanded (b : Build) (ts : Toolset) (h₁ h₂ h₃ h₄ : Host) (b' : Build) (ts' : Toolset)
    (executable : Path) (words : List String) (objects : List Path)
    (choosing compiles : List Command) (link : Command) : Prop where
  /-- The compiler is chosen for the first compilation, unless it was chosen before. -/
  begins : Begins ts words choosing ts'
  compiled : Ran (choosing ++ compiles) h₁ h₂
  linked : Ran [link] h₃ h₄
  length : objects.length = (sources b.units).length
  /-- One command compiles each source, in order. -/
  compiles : compiles.map Command.words =
    List.zipWith (compileWords words ts) (sources b.units) objects
  /-- The objects of the link are those of the compilations, in order. -/
  link : link.words = linkWords words ts executable objects
  /-- The executable is that of the build's own unit. -/
  executable? : b'.primary.executable? = some executable
  path : b'.primary.path = b.primary.path

/-- Collecting files leaves the build its own unit, whether it goes well or not. -/
theorem discover_first (b : Build) (ts : Toolset) (h : Host) :
    Leads (b.discover m ts) h fun r _ => b.primary.Follows r.2.1.primary := by
  unfold discover
  refine Leads.bind (collect_first _ [] b.units ts h) fun r h₁ hr => ?_
  obtain ⟨u, rest, hunits, hfollows⟩ := hr b.primary b.others rfl
  show b.primary.Follows (b.withUnits r.2.1).primary
  rw [hunits]
  exact hfollows

/-- Collecting files leaves the flags of each unit among the shared ones, unless it had been scanned
before without their being taken in. -/
theorem discover_flags {b b₁ : Build} {ts ts₁ : Toolset} {h h₁ : Host}
    (hd : (b.discover m ts).run h = ((.ok (), b₁, ts₁), h₁)) :
    ∀ u ∈ b₁.units, realFlags u.flags <:+: ts₁.flags ∨
      u ∈ b.units ∧ u.scanned = true ∧ ¬ realFlags u.flags <:+: ts.flags := by
  obtain ⟨n, vs, hsteps⟩ := exists_steps hd
  have hts : ts₁ = vs.foldl taking ts := hsteps.toolset
  obtain ⟨hfront, hpushed⟩ := foldl_taking_flags vs ts
  rw [← hts] at hfront hpushed
  intro u hu
  by_cases hflags : realFlags u.flags <:+: ts.flags
  · exact .inl (hflags.trans hfront.isInfix)
  · rcases hsteps.visited hu with hnil | ⟨hold, hscanned⟩ | ⟨v, hv, rfl⟩
    · cases hnil
    · exact .inr ⟨hold, hscanned, hflags⟩
    · exact .inl (hpushed v hv)

/-- Linking leaves the build's own unit its kind, whether it goes well or not. -/
theorem link_kind (b : Build) (ts : Toolset) (h : Host) :
    Leads (b.link m ts) h fun r _ => r.2.1.primary.kind = b.primary.kind := by
  unfold link
  refine Leads.skip fun signal? h₁ => ?_
  cases signal? with
  | some signal => exact rfl
  | none =>
    have hlink : Leads (ts.link m b.units) h₁ fun r _ =>
        r.2.2.map (·.kind) = b.units.map (·.kind) := by
      have hcommand : Leads (ts.linkCommand m b.units) h₁ fun r _ =>
          r.2.2.map (·.kind) = b.units.map (·.kind) := by
        unfold linkCommand
        refine Leads.bind (linkPlaces_kinds b.units h₁) fun r h₂ hr => ?_
        obtain ⟨r, units⟩ := r
        cases r with
        | error e => exact hr
        | ok places =>
          refine Leads.skip fun r h₃ => ?_
          obtain ⟨r, ts₃⟩ := r
          cases r with
          | error e => exact hr
          | ok c => exact hr
      unfold Toolset.link
      refine Leads.bind hcommand fun r h₂ hr => ?_
      obtain ⟨r, ts₂, units⟩ := r
      cases r with
      | error e => exact hr
      | ok command =>
        refine Leads.skip fun r h₃ => ?_
        cases r with
        | error e => exact hr
        | ok _ => exact hr
    refine Leads.bind hlink fun r h₂ hr => ?_
    obtain ⟨r, ts₂, units⟩ := r
    have hr : units.map (·.kind) = b.units.map (·.kind) := hr
    show (b.withUnits units).primary.kind = b.primary.kind
    cases units with
    | nil => rfl
    | cons u rest => exact (List.cons.inj hr).1

/-- Collecting, compiling and linking leave the build's own unit its kind. -/
theorem steps_kind (b : Build) (ts : Toolset) (h : Host) :
    Leads (b.steps m ts) h fun r _ => r.2.1.primary.kind = b.primary.kind := by
  unfold steps
  refine Leads.bind (discover_first b ts h) fun r h₁ hfollows => ?_
  obtain ⟨r, b₁, ts₁⟩ := r
  cases r with
  | error f => exact hfollows.kind
  | ok _ =>
    refine Leads.bind (compile_outcome b₁ ts₁ h₁) fun r h₂ hr => ?_
    obtain ⟨r, b₂, ts₂⟩ := r
    have hkind : b₂.primary.kind = b.primary.kind := hr.2.kind.trans hfollows.kind
    cases r with
    | error f => exact hkind
    | ok _ => exact (link_kind b₂ ts₂ h₂).mono fun _ _ hlink => hlink.trans hkind

/-- Whatever a build has come to, its own unit is a source. -/
theorem Reached.source {base : Host} {b : Build} {h : Host} (hr : Reached m cfg base b h) :
    b.primary.kind = .source := by
  induction hr with
  | ofPath h₀ script => rfl
  | discover _ _ hrun ih =>
    exact ((leads_of_run hrun _).mp (discover_first _ _ _)).kind.trans ih
  | compile _ _ hrun ih =>
    exact ((leads_of_run hrun _).mp (compile_outcome _ _ _)).2.kind.trans ih
  | link _ _ hrun ih => exact ((leads_of_run hrun _).mp (link_kind _ _ _)).trans ih
  | cleanup _ hrun ih => exact ((leads_of_run hrun _).mp (cleanup_outcome _ _)).1.kind.trans ih
  | @build b b' ts ts' h h' r _ _ hrun ih =>
    have hbuild : Leads (b.build m ts) h fun r _ => r.2.1.primary.kind = b.primary.kind := by
      unfold Build.build
      refine Leads.bind (steps_kind b ts h) fun r h₁ hsteps => ?_
      obtain ⟨result, b₁, ts₁⟩ := r
      refine Leads.bind (cleanup_outcome b₁ h₁) fun b₂ h₂ hclean => ?_
      have hkind : b₂.primary.kind = b.primary.kind := hclean.1.kind.trans hsteps
      cases result with
      | ok executable => exact hkind
      | error f =>
        have hremove : Leads (b₂.removeExecutable m) h₂ fun b₃ _ =>
            b₃.primary.kind = b₂.primary.kind := by
          unfold removeExecutable
          refine Leads.bind (removeExecutable_result b₂.primary h₂) fun u h₃ hu => ?_
          show u.kind = b₂.primary.kind
          rw [hu, withoutExecutable]
          split <;> rfl
        exact Leads.bind hremove fun b₃ h₃ hb₃ => hb₃.trans hkind
    exact ((leads_of_run hrun _).mp hbuild).trans ih

/-- Linking a build whose own unit is a source is no misuse. Once the compiler is chosen, and each
source has its object, a link that goes well has run one command. -/
theorem link_commanded {b : Build} (hsource : b.primary.isHeader = false) (ts : Toolset)
    (h : Host) : Leads (b.link m ts) h fun r h' =>
      (∀ e, r.1 = .error (.buildTool e) → e.isMisuse = false) ∧
      ∀ words objects, ts.chosen? = some words →
        (sources b.units).map (·.object?) = objects.map some →
        ∀ p, r.1 = .ok p → r.2.2 = ts ∧ r.2.1.primary = { b.primary with executable? := some p } ∧
          ∃ c, Ran [c] h h' ∧ c.words = linkWords words ts p objects := by
  unfold link
  refine Leads.bind (P := fun _ h₁ => h₁.events = h.events) rfl fun signal? h₁ he => ?_
  cases signal? with
  | some signal => exact ⟨fun e he => (by cases he), fun words objects _ _ p hp => by cases hp⟩
  | none =>
    refine Leads.bind (link_ran m ts hsource b.others h₁) fun r h₂ hr => ?_
    obtain ⟨hmisuse, hok⟩ := hr
    obtain ⟨r, ts₂, units⟩ := r
    cases r with
    | error e =>
      refine ⟨fun e' he => ?_, fun words objects _ _ p hp => by cases hp⟩
      cases he
      exact hmisuse e rfl
    | ok executable =>
      refine ⟨fun e he => (by cases he), fun words objects hchosen hobjects p hp => ?_⟩
      cases hp
      obtain ⟨hts, hunits, c, hran, hwords⟩ := hok words objects hchosen hobjects executable rfl
      have hunits : units = { b.primary with executable? := some executable } :: b.others := hunits
      refine ⟨hts, ?_, c, Ran.of_events he hran, hwords⟩
      show (b.withUnits units).primary = _
      rw [hunits]
      rfl

/-- To compile a build by a toolset and then to link it, on any hosts, is no misuse: no header is
compiled, and there is something to link. Where both go well, one command has been run for each
source, in order, and one for the link, of the objects that those have made. -/
def IsCommanded (m : Machine) (b : Build) (ts : Toolset) : Prop :=
  ∀ r b₁ ts₁ k₁ k₂, (b.compile m ts).run k₁ = ((r, b₁, ts₁), k₂) →
    (∀ e, r = .error (.buildTool e) → e.isMisuse = false) ∧
    ∀ r' b₂ ts₂ k₃ k₄, (b₁.link m ts₁).run k₃ = ((r', b₂, ts₂), k₄) →
      (∀ e, r' = .error (.buildTool e) → e.isMisuse = false) ∧
      ∀ executable, r = .ok () → r' = .ok executable →
        ∃ words objects choosing compiles link, Commanded b ts k₁ k₂ k₃ k₄ b₂ ts₂ executable
          words objects choosing compiles link

/-- A build whose own unit is a source is compiled and linked in this manner. -/
theorem isCommanded_of_source {b₁ : Build} (hsource : b₁.primary.isHeader = false)
    (ts₁ : Toolset) : IsCommanded m b₁ ts₁ := by
  intro r b₂ ts₂ k₁ k₂ hcompile
  obtain ⟨⟨result, units, ts'⟩, h', hrun⟩ := exists_run (compileUnits m b₁.units ts₁) k₁
  rw [compile, run_bind_of_run hrun] at hcompile
  cases hcompile
  obtain ⟨-, hkeepAll⟩ := (leads_of_run hrun _).mp (compileUnits_outcome b₁.units ts₁ k₁)
  obtain ⟨hunits, hkeeps, -⟩ := keeps_withUnits hkeepAll
  refine ⟨(leads_of_run hrun _).mp (compileUnits_error m b₁.units ts₁ k₁),
    fun r' b₃ ts₃ k₃ k₄ hlink => ?_⟩
  have hsource₂ : (b₁.withUnits units).primary.isHeader = false := by
    rw [isHeader, hkeeps.kind]
    exact hsource
  obtain ⟨hmisuse, hok⟩ := (leads_of_run hlink _).mp (link_commanded hsource₂ ts₂ k₃)
  refine ⟨hmisuse, fun executable hcompiled hlinked => ?_⟩
  -- What compiling leaves to the units and to the toolset is what linking finds.
  obtain ⟨words, choosing, objects, compiles, hbegins, hran, hall⟩ :=
    (leads_of_run hrun _).mp (compileUnits_ran m hsource b₁.others ts₁ k₁) hcompiled
  have hts₂ : ts₂ = { ts₁ with chosen? := some words } := hbegins.toolset
  have hchosen : ts₂.chosen? = some words := by rw [hts₂]
  have hobjects : (sources (b₁.withUnits units).units).map (·.object?) = objects.map some := by
    rw [hunits]
    exact hall.objects
  obtain ⟨hts₃, hprimary, link, hlinkran, hwords⟩ :=
    hok words objects hchosen hobjects executable hlinked
  have hts₃ : ts₃ = ts₂ := hts₃
  have hprimary : b₃.primary =
      { (b₁.withUnits units).primary with executable? := some executable } := hprimary
  refine ⟨words, objects, choosing, compiles, link,
    { begins := hts₃ ▸ hbegins
      compiled := hran
      linked := hlinkran
      length := hall.length
      compiles := hall.commands
      link := ?link
      executable? := by rw [hprimary]
      path := by rw [hprimary]; exact hkeeps.path }⟩
  case link =>
    rw [hwords, hts₂]
    rfl

/-- However a build has come about, it is compiled and linked in this manner. -/
theorem Reached.isCommanded {base : Host} {b : Build} {h : Host} (hr : Reached m cfg base b h)
    (ts : Toolset) : IsCommanded m b ts :=
  isCommanded_of_source (isHeader_of_source hr.source) ts

/-- The units of a build that is compiled and linked are told to the compiler alike. After a
collection that went well the flags of each unit are among the shared ones, unless it had been
scanned before without their being taken in. Then no header is compiled and there is something to
link; and where compiling and linking go well, one command has been run for each source, in order,
and one for the link, of the objects that those have made. -/
theorem commands_agree {b b₁ : Build} {ts ts₁ : Toolset} {h h₁ : Host}
    (hkind : b.primary.kind = .source)
    (hd : (b.discover m ts).run h = ((.ok (), b₁, ts₁), h₁)) :
    (∀ u ∈ b₁.units, realFlags u.flags <:+: ts₁.flags ∨
      u ∈ b.units ∧ u.scanned = true ∧ ¬ realFlags u.flags <:+: ts.flags) ∧
    IsCommanded m b₁ ts₁ := by
  have hsource : b₁.primary.isHeader = false := by
    have hfollows := (leads_of_run hd _).mp (discover_first b ts h)
    exact isHeader_of_source (hfollows.kind.trans hkind)
  exact ⟨discover_flags hd, isCommanded_of_source hsource ts₁⟩

/-- Collecting the files of the script of `draft` once more, after that has failed. -/
def draftAgain : (Except Failure Unit × Build × Toolset) × Host :=
  (draftRun.1.2.1.discover workshop draftRun.1.2.2).run draftRun.2

/-- Compiling the script then. -/
def draftCompiled : (Except Failure Unit × Build × Toolset) × Host :=
  (draftAgain.1.2.1.compile workshop draftAgain.1.2.2).run draftAgain.2

/-- Linking it then. -/
def draftLinked : (Except Failure Path × Build × Toolset) × Host :=
  (draftCompiled.1.2.1.link workshop draftCompiled.1.2.2).run draftCompiled.2

/-- That goes well, and what has been compiled is linked. The library that the script asks for had
not been taken in, and is not among the shared flags. -/
theorem commands_agree_draft :
    draftLinked.1.1 = .ok ⟨"m-hbcxx-7"⟩ ∧ draftAgain.1.2.1.primary.flags = ["-lm"] ∧
      draftAgain.1.2.2.flags = [] ∧
      ∃ words objects choosing compiles link, Commanded draftAgain.1.2.1 draftAgain.1.2.2
        draftAgain.2 draftCompiled.2 draftCompiled.2 draftLinked.2 draftLinked.1.2.1
        draftLinked.1.2.2 ⟨"m-hbcxx-7"⟩ words objects choosing compiles link := by
  have hkind : draftRun.1.2.1.primary.kind = .source := by decide +kernel
  have hagain : draftAgain.1.1 = .ok () := by decide +kernel
  have hcompiled : draftCompiled.1.1 = .ok () := by decide +kernel
  have hlinked : draftLinked.1.1 = .ok ⟨"m-hbcxx-7"⟩ := by decide +kernel
  refine ⟨hlinked, by decide +kernel, by decide +kernel, ?_⟩
  obtain ⟨⟨⟨r, b₁, ts₁⟩, h₁⟩, hd⟩ : ∃ x, draftAgain = x := ⟨_, rfl⟩
  obtain ⟨⟨⟨r₂, b₂, ts₂⟩, h₂⟩, hc⟩ : ∃ x, draftCompiled = x := ⟨_, rfl⟩
  obtain ⟨⟨⟨r₃, b₃, ts₃⟩, h₃⟩, hl⟩ : ∃ x, draftLinked = x := ⟨_, rfl⟩
  have hcompile : (b₁.compile workshop ts₁).run h₁ = ((r₂, b₂, ts₂), h₂) := by
    rw [← hc, draftCompiled, hd]
  have hlink : (b₂.link workshop ts₂).run h₂ = ((r₃, b₃, ts₃), h₃) := by
    rw [← hl, draftLinked, hc]
  rw [hd] at hagain
  rw [hc] at hcompiled
  rw [hl] at hlinked
  cases hagain
  rw [hd, hc, hl]
  obtain ⟨-, hruns⟩ := commands_agree hkind hd
  exact ((hruns _ _ _ _ _ hcompile).2 _ _ _ _ _ hlink).2 _ hcompiled hlinked

end Build

end CxxScript

import CxxScript.Proofs.Build.Artifacts
import Mathlib.Data.List.Forall2

/-!
# The executable of a build

Compiling and linking leave every unit its file, its copy and its kind, `CompilationUnit.Keeps`, and
the link gives the first source the executable that the linker is told to write. What clears up
afterwards leaves it that executable. So a build that goes well ends as `Build.Built` says: the
executable it gives is the one its own unit has, and the command that made it has been run.
-/

set_option autoImplicit false

namespace CxxScript

open Host

variable {m : Machine} {cfg : Config}

/-! ## What running a command writes down -/

namespace Host

/-- Nothing that has been written down is lost. -/
abbrev Retains (h h' : Host) : Prop := Wrote (fun _ => True) h h'

/-- What has been written down stays. -/
theorem Retains.mem {h h' : Host} (hr : Retains h h') {e : Event} (he : e ∈ h.events) :
    e ∈ h'.events := by
  obtain ⟨es, hes, -⟩ := hr
  rw [hes]
  exact List.mem_append_left _ he

/-- All that an attempt to run a program writes down is what the program writes. -/
theorem wrote_runAttempt (attempt : SignalSet → Files → Except IoError Outcome)
    (shownAs : String) (discardStderr : Bool) (h : Host) :
    Leads (runAttempt attempt shownAs discardStderr) h fun _ h' =>
      Wrote (fun e => ∃ stream content, e = .bytes stream content) h h' := by
  have hsignals : ∀ (f : Signals → Signals) (h : Host),
      Leads (modifySignals f) h fun _ h' => h'.events = h.events := fun f h => settle_events _
  unfold runAttempt
  rw [leads_bind, leads_get]
  refine Leads.bind (hsignals _ h) fun _ h₁ he₁ => ?_
  rw [leads_bind, leads_get]
  split
  · exact Leads.bind (hsignals _ h₁) fun _ h₂ he₂ => .of_eq (he₂.trans he₁)
  · next o _ =>
    rw [leads_bind, leads_modify]
    refine Leads.bind (hsignals _ _) fun _ h₂ he₂ => ?_
    refine Wrote.trans (.of_eq he₁) (Wrote.trans ⟨_, settle_events _, ?_⟩ (.of_eq he₂))
    intro e he
    obtain ⟨w, -, rfl⟩ := List.mem_map.mp he
    exact ⟨w.1, w.2, rfl⟩

/-- An attempt to run a program loses nothing that has been written down. -/
theorem retains_runAttempt (attempt : SignalSet → Files → Except IoError Outcome)
    (shownAs : String) (discardStderr : Bool) (h : Host) :
    Leads (runAttempt attempt shownAs discardStderr) h fun _ h' => Retains h h' :=
  (wrote_runAttempt attempt shownAs discardStderr h).mono fun _ _ hw => hw.mono fun _ _ => trivial

/-- A command that is run has been written down. -/
theorem mem_events_run (m : Machine) (c : Command) (h : Host) :
    Leads (run m c) h fun _ h' => .note (.running c) ∈ h'.events := by
  unfold run
  rw [leads_bind, leads_note]
  refine (retains_runAttempt _ _ _ _).mono fun _ _ hr => hr.mem ?_
  exact List.mem_append_right _ List.mem_cons_self

end Host

/-! ## What compiling and linking leave to a unit -/

namespace CompilationUnit

/-- The unit has kept its file, its kind, its copy and its executable. -/
structure Keeps (u u' : CompilationUnit) : Prop where
  path : u'.path = u.path
  kind : u'.kind = u.kind
  copy : u'.copy = u.copy
  executable? : u'.executable? = u.executable?

/-- A unit keeps what it has. -/
theorem Keeps.refl (u : CompilationUnit) : u.Keeps u := ⟨rfl, rfl, rfl, rfl⟩

/-- Some units have kept what they had. -/
abbrev KeepAll (us us' : List CompilationUnit) : Prop := List.Forall₂ Keeps us us'

/-- Units keep what they have. -/
theorem KeepAll.refl (us : List CompilationUnit) : KeepAll us us :=
  List.forall₂_same.mpr fun u _ => .refl u

/-- How a unit gives the place of something that it makes. All that is written down is that the
place had to be found somewhere else; the unit has it then, and nothing else about it changes. Where
there is none nothing changes, and a source fails for want of a place alone. -/
structure Gives (u : CompilationUnit) (having : Path → CompilationUnit) (h : Host)
    (r : Except UnitError Path × CompilationUnit) (h' : Host) : Prop where
  wrote : Wrote Placement.IsMove h h'
  ok : ∀ p, r.1 = .ok p → r.2 = having p
  error : ∀ e, r.1 = .error e → r.2 = u ∧ (u.isHeader = false → ∃ cause, e = .location cause)

namespace Gives

variable {u : CompilationUnit} {having : Path → CompilationUnit} {h h' : Host}

/-- A header makes nothing. -/
theorem header (hheader : u.isHeader = true) :
    u.Gives having h (.error (.headerNotCompiled u.path), u) h where
  wrote := .of_eq rfl
  ok p hp := by cases hp
  error e he := by
    refine ⟨rfl, fun hsource => ?_⟩
    rw [hheader] at hsource
    cases hsource

/-- There may be no place. -/
theorem missing (hw : Wrote Placement.IsMove h h') (cause : PlacementError) :
    u.Gives having h (.error (.location cause), u) h' where
  wrote := hw
  ok p hp := by cases hp
  error e he := by
    cases he
    exact ⟨rfl, fun _ => ⟨cause, rfl⟩⟩

/-- A place that there is, is given. -/
theorem found (hw : Wrote Placement.IsMove h h') (p : Path) :
    u.Gives having h (.ok p, having p) h' where
  wrote := hw
  ok p' hp := by
    cases hp
    rfl
  error e he := by cases he

/-- A place that the unit has already is given. -/
theorem known {p : Path} (hp : having p = u) : u.Gives having h (.ok p, u) h := by
  have hfound : u.Gives having h (.ok p, having p) h := .found (.of_eq rfl) p
  rwa [hp] at hfound

end Gives

/-- A unit that is asked for a derived file gives one, if it has that when it knows it. -/
theorem Yields.gives {u : CompilationUnit} {known asked : Option Path} {extension : String}
    {having : Path → CompilationUnit} {h h' : Host} {r : Except UnitError Path × CompilationUnit}
    (hy : u.Yields m cfg known asked extension having h r h')
    (hhaving : ∀ p, known = some p → having p = u) : u.Gives having h r h' := by
  have hwrote := Placement.wrote_find m cfg.cacheRoot (u.copy.withExtension extension) h
  cases hy with
  | header hheader => exact .header hheader
  | known _ hknown => exact .known (hhaving _ hknown)
  | asked => exact .found (.of_eq rfl) _
  | missing _ _ _ hfind => exact .missing ((leads_of_run hfind _).mp hwrote) _
  | found _ _ _ hfind => exact .found ((leads_of_run hfind _).mp hwrote) _

/-- A unit gives its object. -/
theorem object_made (u : CompilationUnit) (h : Host) :
    Leads (u.object m cfg) h (u.Gives (fun p => { u with object? := some p }) h) :=
  (object_yields m cfg u h).mono fun _ _ hyields => hyields.gives fun p hp => by rw [← hp]

/-- A unit gives its executable. -/
theorem executable_made (u : CompilationUnit) (h : Host) :
    Leads (u.executable m cfg) h (u.Gives (fun p => { u with executable? := some p }) h) :=
  (executable_yields m cfg u h).mono fun _ _ hyields => hyields.gives fun p hp => by rw [← hp]

/-- A unit that is asked for its object keeps the rest. -/
theorem keeps_object (u : CompilationUnit) (h : Host) :
    Leads (u.object m cfg) h fun r _ => u.Keeps r.2 := by
  refine (object_made u h).mono fun r h' hr => ?_
  obtain ⟨r, u'⟩ := r
  cases r with
  | error e =>
    obtain rfl : u' = u := (hr.error e rfl).1
    exact .refl _
  | ok p =>
    obtain rfl : u' = { u with object? := some p } := hr.ok p rfl
    exact ⟨rfl, rfl, rfl, rfl⟩

/-- A source is no header. -/
theorem isHeader_of_source {u : CompilationUnit} (h : u.kind = .source) : u.isHeader = false := by
  rw [isHeader, h]
  rfl

/-- How a source without an executable comes by one: it is the one that was asked for, else it
stands at a site of the name that the copy gives. -/
def ExecutableFor (m : Machine) (cfg : Config) (u : CompilationUnit) (p : Path) : Prop :=
  cfg.executable = some p ∨
    cfg.executable = none ∧ ∃ s : Site, p = s.path m cfg.cacheRoot (u.copy.withExtension "")

/-- A source without an executable keeps the one it is given. -/
theorem executable_outcome {u : CompilationUnit} (hkind : u.kind = .source)
    (hnone : u.executable? = none) (h : Host) :
    Leads (u.executable m cfg) h fun r _ => ∀ p, r.1 = .ok p →
      r.2 = { u with executable? := some p } ∧ u.ExecutableFor m cfg p := by
  refine (executable_yields m cfg u h).mono fun r h' hyields => ?_
  cases hyields with
  | header hheader =>
    rw [isHeader_of_source hkind] at hheader
    cases hheader
  | known _ hknown => rw [hnone] at hknown; cases hknown
  | asked _ _ hasked =>
    rintro p ⟨⟩
    exact ⟨rfl, .inl hasked⟩
  | missing => exact fun p hp => by cases hp
  | found _ _ hunasked hfind =>
    obtain ⟨s, rfl⟩ := (leads_of_run hfind _).mp (Placement.find_site m _ _ h) _ rfl
    rintro p ⟨⟩
    exact ⟨rfl, .inr ⟨hunasked, s, rfl⟩⟩

/-- A source that has an executable gives it. -/
theorem executable_of_some {u : CompilationUnit} (hkind : u.kind = .source) {p : Path}
    (hsome : u.executable? = some p) (m : Machine) (cfg : Config) :
    u.executable m cfg = pure (.ok p, u) := by
  unfold executable
  rw [isHeader_of_source hkind, if_neg Bool.false_ne_true, hsome]

end CompilationUnit

namespace Toolset

open CompilationUnit

/-- Choosing the compiler leaves the toolset its configuration. -/
theorem config_compiler (m : Machine) (ts : Toolset) (h : Host) :
    Leads (ts.compiler m) h fun r _ => r.2.config = ts.config := by
  unfold compiler
  split
  · exact rfl
  · refine Leads.skip fun r h' => ?_
    cases r with
    | error e => exact rfl
    | ok words => exact rfl

/-- The beginning of a command leaves the toolset its configuration. -/
theorem config_base (m : Machine) (ts : Toolset) (h : Host) :
    Leads (ts.base m) h fun r _ => r.2.config = ts.config := by
  unfold base
  refine Leads.bind (config_compiler m ts h) fun r h₁ hc => ?_
  obtain ⟨r, ts₁⟩ := r
  cases r with
  | error e => exact hc
  | ok words =>
    dsimp only
    split <;> exact hc

/-- Compiling a unit leaves the toolset its configuration and the unit what it keeps. -/
theorem compile_outcome (m : Machine) (ts : Toolset) (u : CompilationUnit) (h : Host) :
    Leads (ts.compile m u) h fun r _ => r.2.1.config = ts.config ∧ u.Keeps r.2.2 := by
  have hcommand : Leads (ts.compileCommand m u) h fun r _ =>
      r.2.1.config = ts.config ∧ u.Keeps r.2.2 := by
    unfold compileCommand
    refine Leads.bind (keeps_object u h) fun r h₁ hu => ?_
    obtain ⟨r, u₁⟩ := r
    cases r with
    | error cause => exact ⟨rfl, hu⟩
    | ok object =>
      refine Leads.bind (config_base m ts h₁) fun r h₂ hc => ?_
      obtain ⟨r, ts₂⟩ := r
      cases r with
      | error e => exact ⟨hc, hu⟩
      | ok c => exact ⟨hc, hu⟩
  unfold compile
  refine Leads.bind hcommand fun r h₁ hr => ?_
  obtain ⟨r, ts₁, u₁⟩ := r
  cases r with
  | error e => exact hr
  | ok c => exact Leads.skip fun _ _ => hr

/-- Units that are asked for their objects keep the rest. -/
theorem keepAll_objects (us : List CompilationUnit) (h : Host) :
    Leads (objects m cfg us) h fun r _ => KeepAll us r.2 := by
  induction us generalizing h with
  | nil => exact .nil
  | cons u rest ih =>
    unfold objects
    split
    · exact Leads.bind (ih h) fun r h₁ hrest => .cons (.refl u) hrest
    · refine Leads.bind (keeps_object u h) fun r h₁ hu => ?_
      obtain ⟨r, u₁⟩ := r
      cases r with
      | error cause => exact .cons hu (KeepAll.refl rest)
      | ok path => exact Leads.bind (ih h₁) fun r h₂ hrest => .cons hu hrest

/-- The executable for a link is that of the first unit, if it is a source, which has it from then
on. -/
theorem linkPlaces_outcome {u : CompilationUnit} (rest : List CompilationUnit)
    (hkind : u.kind = .source) (hnone : u.executable? = none) (h : Host) :
    Leads (linkPlaces m cfg (u :: rest)) h fun r _ => ∀ p paths, r.1 = .ok (p, paths) →
      u.ExecutableFor m cfg p ∧ KeepAll ({ u with executable? := some p } :: rest) r.2 := by
  unfold linkPlaces
  rw [isHeader_of_source hkind, if_neg Bool.false_ne_true]
  refine Leads.bind (executable_outcome hkind hnone h) fun r h₁ hu => ?_
  obtain ⟨r, u₁⟩ := r
  cases r with
  | error cause =>
    intro p paths hp
    cases hp
  | ok executable =>
    -- The objects are asked for with the executable in place, and leave it there.
    obtain ⟨hu₁, hfor⟩ := hu executable rfl
    have hu₁ : u₁ = { u with executable? := some executable } := hu₁
    refine Leads.bind (keepAll_objects (u₁ :: rest) h₁) fun r h₂ hkeep => ?_
    obtain ⟨r, units⟩ := r
    cases r with
    | error cause =>
      intro p paths hp
      cases hp
    | ok objects =>
      intro p paths hp
      cases hp
      exact ⟨hfor, hu₁ ▸ hkeep⟩

/-- The command for a link tells the linker to write the executable of the first unit. -/
theorem linkCommand_outcome {ts : Toolset} {u : CompilationUnit} (rest : List CompilationUnit)
    (hkind : u.kind = .source) (hnone : u.executable? = none) (h : Host) :
    Leads (ts.linkCommand m (u :: rest)) h fun r _ => ∀ c p, r.1 = .ok (c, p) →
      u.ExecutableFor m ts.config p ∧ KeepAll ({ u with executable? := some p } :: rest) r.2.2 ∧
        ∃ (c' : Command) (objects : List Path), c = c'.withArgs (r.2.1.linkArgs p objects) := by
  unfold linkCommand
  refine Leads.bind (linkPlaces_outcome rest hkind hnone h) fun r h₁ hplaces => ?_
  obtain ⟨r, units⟩ := r
  cases r with
  | error e =>
    intro c p hp
    cases hp
  | ok places =>
    obtain ⟨executable, paths⟩ := places
    obtain ⟨hfor, hkeep⟩ := hplaces executable paths rfl
    refine Leads.skip fun r h₂ => ?_
    obtain ⟨r, ts₁⟩ := r
    cases r with
    | error e =>
      intro c p hp
      cases hp
    | ok c' =>
      intro c p hp
      cases hp
      exact ⟨hfor, hkeep, c', paths, rfl⟩

/-- A command that is performed has been written down. -/
theorem mem_events_perform (m : Machine) (c : Command) (h : Host) :
    Leads (perform m c) h fun _ h' => .note (.running c) ∈ h'.events := by
  unfold perform
  refine Leads.bind (mem_events_run m c h) fun r h₁ hmem => ?_
  cases r with
  | error cause => exact hmem
  | ok status =>
    dsimp only
    split <;> exact hmem

/-- A link that goes well has run the linker, told to write the executable of the first unit. -/
theorem link_outcome {ts : Toolset} {u : CompilationUnit} (rest : List CompilationUnit)
    (hkind : u.kind = .source) (hnone : u.executable? = none) (h : Host) :
    Leads (ts.link m (u :: rest)) h fun r h' => ∀ p, r.1 = .ok p →
      u.ExecutableFor m ts.config p ∧ KeepAll ({ u with executable? := some p } :: rest) r.2.2 ∧
        ∃ (c : Command) (objects : List Path),
          .note (.running (c.withArgs (r.2.1.linkArgs p objects))) ∈ h'.events := by
  unfold link
  refine Leads.bind (linkCommand_outcome rest hkind hnone h) fun r h₁ hcommand => ?_
  obtain ⟨r, ts₁, units⟩ := r
  cases r with
  | error e =>
    intro p hp
    cases hp
  | ok command =>
    obtain ⟨c, executable⟩ := command
    obtain ⟨hfor, hkeep, c', objects, hc⟩ := hcommand c executable rfl
    refine Leads.bind (mem_events_perform m c h₁) fun r h₂ hmem => ?_
    cases r with
    | error e =>
      intro p hp
      cases hp
    | ok _ =>
      intro p hp
      cases hp
      exact ⟨hfor, hkeep, c', objects, hc ▸ hmem⟩

end Toolset

end CxxScript

import CxxScript.Proofs.Build.Clearing
import CxxScript.Proofs.Build.Effects

/-!
# What all the work of the tool keeps

Whatever the tool does to a host, it does by a few kinds of steps: it writes something down, changes
the files, looks for an interrupt, and runs programs. A relation between hosts that each of these
keeps, `WorkFrame`, is kept by all of its work, from finding a place for a file to building a script
and starting its program: `WorkFrame.build` and `WorkFrame.launch`.
-/

set_option autoImplicit false

namespace CxxScript

open Host

/-- Work maintains a relation between the host before and the host after. -/
def Host.Maintains {α : Type} (R : Host → Host → Prop) (x : StateM Host α) : Prop :=
  ∀ h, Leads x h fun _ h' => R h h'

/-- A relation between hosts that every kind of step of the tool's work keeps. -/
structure WorkFrame (m : Machine) (R : Host → Host → Prop) : Prop where
  refl : ∀ h, R h h
  trans : ∀ {a b c}, R a b → R b c → R a c
  emit : ∀ e, Maintains R (Host.emit e)
  files : ∀ (fs : Files) (h : Host), R h { h with files := fs }
  poll : Maintains R (Host.poll m)
  attempt : ∀ attempt shownAs discardStderr,
    Maintains R (runAttempt attempt shownAs discardStderr)
  absorb : ∀ o shown, Maintains R (modify (·.absorb o shown))

namespace WorkFrame

variable {α β : Type} {m : Machine} {R : Host → Host → Prop}

/-- A result by itself. -/
theorem pure (F : WorkFrame m R) (a : α) : Maintains R (Pure.pure a) := fun h => F.refl h

/-- Looking at the host. -/
theorem get (F : WorkFrame m R) : Maintains R get := fun h => F.refl h

/-- A sequence of steps. -/
theorem bind (F : WorkFrame m R) {x : StateM Host α} {f : α → StateM Host β}
    (hx : Maintains R x) (hf : ∀ a, Maintains R (f a)) : Maintains R (x >>= f) := fun h =>
  Leads.bind (hx h) fun a h₁ hR₁ => (hf a h₁).mono fun _ _ hR₂ => F.trans hR₁ hR₂

/-- A step behind which only the result is put together. -/
theorem map (F : WorkFrame m R) {x : StateM Host α} (hx : Maintains R x) (f : α → β) :
    Maintains R (do let a ← x; Pure.pure (f a)) := F.bind hx fun a => F.pure (f a)

/-! ## The files -/

/-- A change to the files. -/
theorem change (F : WorkFrame m R) (step : Files → Except IoError (α × Files)) :
    Maintains R (Host.change step) := fun h => by
  cases hs : step h.files with
  | error e =>
    rw [leads_of_run (run_change_error hs)]
    exact F.refl h
  | ok r =>
    rw [leads_of_run (run_change_ok hs)]
    exact F.files r.2 h

/-- Adding to a file, or to what a descriptor of the tool leads to. -/
theorem append (F : WorkFrame m R) (at_ : Location) (bytes : Bytes) :
    Maintains R (Host.append at_ bytes) := by
  refine F.bind F.get fun h => ?_
  split
  · split
    · exact F.map (F.emit _) _
    · exact F.pure _
  · exact F.change _

/-- Writing a whole file. -/
theorem write (F : WorkFrame m R) (p : Path) (bytes : Bytes) :
    Maintains R (Host.write m p bytes) := by
  refine F.bind (F.change _) fun r => ?_
  cases r with
  | ok at_ => exact F.append at_ bytes
  | error cause => exact F.pure _

/-- Making directories. -/
theorem makeDirectories (F : WorkFrame m R) (p : Path) :
    Maintains R (Host.makeDirectories m p) := fun h => F.files _ h

/-- Removing a file. -/
theorem remove (F : WorkFrame m R) (p : Path) : Maintains R (Host.remove m p) := F.change _

/-- Finding a place for a file. -/
theorem find (F : WorkFrame m R) (root p : Path) : Maintains R (Placement.find m root p) := by
  have htouch : ∀ p, Maintains R (Placement.touch m p) := fun p => F.map (F.change _) _
  have hparent : ∀ p, Maintains R (Placement.makeParent m p) := by
    intro p
    unfold Placement.makeParent
    split
    · exact F.map (F.makeDirectories _) _
    · exact F.pure _
  unfold Placement.find
  refine F.bind (htouch p) fun natural => ?_
  split
  · exact F.pure _
  · refine F.bind F.get fun h => F.bind (hparent _) fun _ => F.bind (htouch _) fun mirrored => ?_
    split
    · exact F.map (F.emit _) _
    · exact F.pure _

/-! ## Programs -/

/-- Running a command to its end. -/
theorem run (F : WorkFrame m R) (c : Command) : Maintains R (Host.run m c) :=
  F.bind (F.emit _) fun _ => F.attempt _ _ _

/-- Running a program under a name of its own to its end. -/
theorem runAs (F : WorkFrame m R) (program : Path) (argv : List String) :
    Maintains R (Host.runAs m program argv) := F.bind (F.emit _) fun _ => F.attempt _ _ _

/-- Running a query. -/
theorem capture (F : WorkFrame m R) (c : Command) : Maintains R (Host.capture m c) := by
  refine F.bind (F.emit _) fun _ => F.bind F.get fun h => ?_
  split
  · exact F.pure _
  · exact F.map (F.absorb _ _) _

/-- Asking for a package. -/
theorem flagsFor (F : WorkFrame m R) (command requirement : String) :
    Maintains R (Package.flagsFor m command requirement) := by
  have hquery : ∀ c, Maintains R (Package.query m c) := by
    intro c
    refine F.bind (F.capture c) fun r => ?_
    split <;> exact F.pure _
  unfold Package.flagsFor
  split
  · exact F.pure _
  · refine F.bind (hquery _) fun r => ?_
    split
    · exact F.pure _
    · split
      · exact F.pure _
      · refine F.bind (hquery _) fun r => ?_
        split
        · exact F.pure _
        · split <;> exact F.pure _

/-! ## Units -/

/-- Opening the copy of a unit. -/
theorem openCopy (F : WorkFrame m R) (cfg : Config) (u : CompilationUnit) :
    Maintains R (u.openCopy m cfg) := by
  unfold CompilationUnit.openCopy
  split
  · exact F.pure _
  · refine F.bind (F.find _ _) fun r => ?_
    cases r with
    | error cause => exact F.pure _
    | ok place => exact F.map (F.change _) _

/-- Finding a place for the object of a unit. -/
theorem object (F : WorkFrame m R) (cfg : Config) (u : CompilationUnit) :
    Maintains R (u.object m cfg) := by
  unfold CompilationUnit.object
  split
  · exact F.pure _
  · split
    · exact F.pure _
    · refine F.bind (F.find _ _) fun r => ?_
      cases r <;> exact F.pure _

/-- Finding a place for the executable of a unit. -/
theorem executable (F : WorkFrame m R) (cfg : Config) (u : CompilationUnit) :
    Maintains R (u.executable m cfg) := by
  unfold CompilationUnit.executable
  split
  · exact F.pure _
  · split
    · exact F.pure _
    · exact F.pure _
    · refine F.bind (F.find _ _) fun r => ?_
      cases r <;> exact F.pure _

/-- What all work keeps a scan keeps. -/
theorem scanFrame (F : WorkFrame m R) (cfg : Config) : ScanFrame m cfg R where
  refl := F.refl
  trans := F.trans
  emit e h _ := F.emit e h
  poll := F.poll
  query requirement := F.flagsFor cfg.pkgConfig requirement
  openCopy := F.openCopy cfg
  append := F.append

/-- What all work keeps clearing up keeps. -/
theorem clearFrame (F : WorkFrame m R) : ClearFrame m R where
  refl := F.refl
  trans := F.trans
  remove p := by
    refine F.bind (F.remove p) fun r => ?_
    cases r <;> exact F.emit _

/-- Scanning a unit. -/
theorem scan (F : WorkFrame m R) (cfg : Config) (u : CompilationUnit) :
    Maintains R (u.scan m cfg) := fun h =>
  (CompilationUnit.scan_outcome (F.scanFrame cfg).toFrame (F.scanFrame cfg) u h).mono
    fun _ _ hs => F.trans (F.emit _ h) hs.host

/-! ## The toolset -/

/-- Pushing flags. -/
theorem pushFlags (F : WorkFrame m R) (ts : Toolset) (run : List String) (position : FlagPosition) :
    Maintains R (ts.pushFlags run position) := by
  have hask : ∀ (ts : Toolset) compiler, Maintains R (ts.ask compiler) := by
    intro ts compiler
    unfold Toolset.ask
    split
    · exact F.map (F.emit _) _
    · split
      · exact F.map (F.emit _) _
      · exact F.pure _
  have hfold : ∀ (compilers : List String) (ts : Toolset),
      Maintains R (compilers.foldlM Toolset.ask ts) := by
    intro compilers
    induction compilers with
    | nil => exact fun ts => F.pure ts
    | cons compiler rest ih =>
      intro ts
      rw [List.foldlM_cons]
      exact F.bind (hask ts compiler) ih
  exact F.map (hfold _ ts) _

/-- Asking for a compiler cache. -/
theorem findCache (F : WorkFrame m R) : Maintains R (Toolset.findCache m) := by
  refine F.bind (F.capture _) fun r => ?_
  split
  · split
    · exact F.pure _
    · exact F.map (F.emit _) _
  · exact F.map (F.emit _) _

/-- Trying a compiler. -/
theorem isUsable (F : WorkFrame m R) (root : Path) (compiler : String) :
    Maintains R (Toolset.isUsable m root compiler) := by
  refine F.bind (F.makeDirectories root) fun r => ?_
  cases r with
  | error cause => exact F.map (F.emit _) _
  | ok _ =>
    refine F.bind (F.write _ _) fun r => ?_
    cases r with
    | error cause => exact F.map (F.emit _) _
    | ok _ =>
      refine F.bind (F.capture _) fun r => ?_
      exact F.bind (F.remove _) fun _ => F.map (F.emit _) _

/-- Trying compilers. -/
theorem firstUsable (F : WorkFrame m R) (root : Path) (compilers : List String) :
    Maintains R (Toolset.firstUsable m root compilers) := by
  induction compilers with
  | nil => exact F.pure _
  | cons compiler rest ih =>
    refine F.bind (F.isUsable root compiler) fun usable => ?_
    split
    · exact F.pure _
    · exact ih

/-- Looking for a compiler. -/
theorem probe (F : WorkFrame m R) (root : Path) : Maintains R (Toolset.probe m root) := by
  have hstore : ∀ record : ToolchainRecord, Maintains R (record.store m root) := by
    intro record
    refine F.bind (F.makeDirectories root) fun r => ?_
    cases r with
    | error cause => exact F.pure _
    | ok _ => exact F.map (F.write _ _) _
  refine F.bind F.findCache fun ccache => F.bind (F.firstUsable root _) fun found => ?_
  cases found with
  | none => exact F.pure _
  | some compiler =>
    refine F.bind (hstore _) fun r => ?_
    cases r with
    | error cause => exact F.map (F.emit _) _
    | ok _ => exact F.pure _

/-- Choosing a compiler. -/
theorem compiler (F : WorkFrame m R) (ts : Toolset) : Maintains R (ts.compiler m) := by
  have hlookup : ∀ root, Maintains R (ToolchainRecord.lookup m root) := by
    intro root
    refine F.bind F.get fun h => ?_
    split
    · exact F.pure _
    · split <;> exact F.map (F.emit _) _
  have hresolve : Maintains R (ts.resolve m) := by
    unfold Toolset.resolve
    split
    · exact F.pure _
    · exact F.map F.findCache _
    · refine F.bind (hlookup _) fun record => ?_
      cases record with
      | some record => exact F.pure _
      | none => exact F.probe _
  unfold Toolset.compiler
  split
  · exact F.pure _
  · refine F.bind hresolve fun r => ?_
    cases r with
    | error e => exact F.pure _
    | ok words => exact F.map (F.emit _) _

/-- The compiler command. -/
theorem base (F : WorkFrame m R) (ts : Toolset) : Maintains R (ts.base m) := by
  refine F.bind (F.compiler ts) fun r => ?_
  obtain ⟨r, ts'⟩ := r
  cases r with
  | error e => exact F.pure _
  | ok words =>
    dsimp only
    split <;> exact F.pure _

/-- The command that compiles a unit. -/
theorem compileCommand (F : WorkFrame m R) (ts : Toolset) (u : CompilationUnit) :
    Maintains R (ts.compileCommand m u) := by
  refine F.bind (F.object _ u) fun r => ?_
  obtain ⟨r, u'⟩ := r
  cases r with
  | error cause => exact F.pure _
  | ok object =>
    refine F.bind (F.base ts) fun r => ?_
    obtain ⟨r, ts'⟩ := r
    cases r <;> exact F.pure _

/-- The objects of some units. -/
theorem objects (F : WorkFrame m R) (cfg : Config) (us : List CompilationUnit) :
    Maintains R (Toolset.objects m cfg us) := by
  induction us with
  | nil => exact F.pure _
  | cons u rest ih =>
    unfold Toolset.objects
    split
    · exact F.map ih _
    · refine F.bind (F.object cfg u) fun r => ?_
      obtain ⟨r, u'⟩ := r
      cases r with
      | error cause => exact F.pure _
      | ok path => exact F.map ih _

/-- The executable and the objects for a link. -/
theorem linkPlaces (F : WorkFrame m R) (cfg : Config) (us : List CompilationUnit) :
    Maintains R (Toolset.linkPlaces m cfg us) := by
  induction us with
  | nil => exact F.pure _
  | cons u rest ih =>
    unfold Toolset.linkPlaces
    split
    · exact F.map ih _
    · refine F.bind (F.executable cfg u) fun r => ?_
      obtain ⟨r, u'⟩ := r
      cases r with
      | error cause => exact F.pure _
      | ok executable =>
        refine F.bind (F.objects cfg _) fun r => ?_
        obtain ⟨r, us'⟩ := r
        cases r <;> exact F.pure _

/-- Running a command that has to succeed. -/
theorem perform (F : WorkFrame m R) (c : Command) : Maintains R (Toolset.perform m c) := by
  refine F.bind (F.run c) fun r => ?_
  split
  · exact F.pure _
  · split <;> exact F.pure _

/-- Compiling a unit. -/
theorem compile (F : WorkFrame m R) (ts : Toolset) (u : CompilationUnit) :
    Maintains R (ts.compile m u) := by
  refine F.bind (F.compileCommand ts u) fun r => ?_
  obtain ⟨r, ts', u'⟩ := r
  cases r with
  | error e => exact F.pure _
  | ok c => exact F.map (F.perform c) _

/-- Linking units. -/
theorem link (F : WorkFrame m R) (ts : Toolset) (us : List CompilationUnit) :
    Maintains R (ts.link m us) := by
  have hcommand : Maintains R (ts.linkCommand m us) := by
    refine F.bind (F.linkPlaces _ us) fun r => ?_
    obtain ⟨r, us'⟩ := r
    cases r with
    | error e => exact F.pure _
    | ok places =>
      refine F.bind (F.base ts) fun r => ?_
      obtain ⟨r, ts'⟩ := r
      cases r <;> exact F.pure _
  refine F.bind hcommand fun r => ?_
  obtain ⟨r, ts', us'⟩ := r
  cases r with
  | error e => exact F.pure _
  | ok c =>
    refine F.bind (F.perform c.1) fun r => ?_
    cases r <;> exact F.pure _

/-! ## Builds -/

/-- Collecting the files of a script. -/
theorem collect (F : WorkFrame m R) (cfg : Config) (fuel : Nat) (done todo : List CompilationUnit)
    (ts : Toolset) : Maintains R (Discovery.collect m cfg fuel done todo ts) := by
  have hannounce : ∀ us, Maintains R (Discovery.announce us) := by
    intro us
    unfold Discovery.announce
    induction us with
    | nil => exact F.pure _
    | cons u rest ih => exact F.bind (F.emit _) fun _ => ih
  have htake : ∀ known (u : CompilationUnit) found ts,
      Maintains R (Discovery.takeIn known u found ts) := fun known u found ts =>
    F.bind (F.pushFlags ts u.flags .normal) fun _ => F.map (hannounce _) _
  induction fuel generalizing done todo ts with
  | zero => cases todo <;> exact F.pure _
  | succ fuel ih =>
    cases todo with
    | nil => exact F.pure _
    | cons u todo =>
      unfold Discovery.collect
      split
      · exact ih _ _ _
      · refine F.bind (F.scan cfg u) fun r => ?_
        obtain ⟨r, u'⟩ := r
        cases r with
        | error e => exact F.pure _
        | ok found => exact F.bind (htake _ _ _ _) fun taken => ih _ _ _

/-- Compiling units. -/
theorem compileUnits (F : WorkFrame m R) (us : List CompilationUnit) (ts : Toolset) :
    Maintains R (Build.compileUnits m us ts) := by
  induction us generalizing ts with
  | nil => exact F.pure _
  | cons u rest ih =>
    unfold Build.compileUnits
    split
    · exact F.map (ih ts) _
    · refine F.bind F.poll fun signal => ?_
      cases signal with
      | some signal => exact F.pure _
      | none =>
        refine F.bind (F.compile ts u) fun r => ?_
        obtain ⟨r, ts', u'⟩ := r
        cases r with
        | error e => exact F.pure _
        | ok _ => exact F.map (ih ts') _

/-- The steps of a build. -/
theorem steps (F : WorkFrame m R) (b : Build) (ts : Toolset) : Maintains R (b.steps m ts) := by
  have hdiscover : Maintains R (b.discover m ts) := F.map (F.collect _ _ _ _ _) _
  refine F.bind hdiscover fun r => ?_
  obtain ⟨r, b₁, ts₁⟩ := r
  cases r with
  | error f => exact F.pure _
  | ok _ =>
    refine F.bind (F.map (F.compileUnits _ _) _) fun r => ?_
    obtain ⟨r, b₂, ts₂⟩ := r
    cases r with
    | error f => exact F.pure _
    | ok _ =>
      refine F.bind F.poll fun signal => ?_
      cases signal with
      | some signal => exact F.pure _
      | none => exact F.map (F.link _ _) _

/-- Building a script. -/
theorem build (F : WorkFrame m R) (b : Build) (ts : Toolset) : Maintains R (b.build m ts) := by
  refine F.bind (F.steps b ts) fun r => ?_
  obtain ⟨r, b₁, ts₁⟩ := r
  refine F.bind (Build.cleanup_clears F.clearFrame b₁) fun b₂ => ?_
  cases r with
  | ok executable => exact F.pure _
  | error f =>
    have hremove : Maintains R (b₂.removeExecutable m) :=
      F.map (CompilationUnit.removeExecutable_clears F.clearFrame _) _
    exact F.map hremove _

/-- Starting the program of a script. -/
theorem launch (F : WorkFrame m R) (b : Build) (l : Launcher) (cfg : Config)
    (args : List String) : Maintains R (b.launch m l cfg args) := by
  have hlaunch : ∀ u, Maintains R (l.launch m cfg u args) := by
    intro u
    refine F.bind (F.executable cfg u) fun r => ?_
    obtain ⟨r, u'⟩ := r
    cases r with
    | error cause => exact F.pure _
    | ok executable =>
      dsimp only
      split
      case' h_1 => refine F.bind (F.run _) fun ended => ?_
      case' h_2 => refine F.bind (F.runAs _ _) fun ended => ?_
      all_goals
        cases ended with
        | error cause => exact F.pure _
        | ok status => exact F.map (F.emit _) _
  exact F.map (hlaunch _) _

end WorkFrame

end CxxScript

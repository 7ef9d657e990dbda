import CxxScript.Build.Toolset
import CxxScript.Build.Launcher
import CxxScript.Proofs.Build.Choosing
import CxxScript.Proofs.Host.Adding
import Mathlib.Data.List.Basic

/-!
# What the steps of a build leave behind

As long as the programs that are started are modest, `Event.IsModest`, the files after some steps
stand in a relation to those before, `Relates`. The relation of interest is that each step of a
build adds files only under paths that it knows, `Leaves made`, if all that its programs add is the
output of a compiler. The files below the cache root that are to stay, `Config.kept`, are always
among these paths; the object of the probe, which is removed at once, never is.
-/

set_option autoImplicit false

namespace CxxScript

open Host

/-! ## Temporary names -/

/-- Whether a name is one for temporary files: it carries the token of the run, or it is that of the
probe's object. -/
def IsTemporary (pid : Nat) (name : String) : Prop :=
  (∃ before after, name = before ++ CompilationUnit.token pid ++ after) ∨ name = "cxx11check.o"

/-- Whatever has a temporary name is a regular file or a directory. -/
def Files.Clear (fs : Files) (pid : Nat) : Prop := ∀ name, IsTemporary pid name → fs.Ordinary name

/-- Nothing else comes under a temporary name as long as the ways stay the same. -/
theorem Files.SameWays.clear {fs fs' : Files} (h : fs.SameWays fs') {pid : Nat}
    (hc : fs.Clear pid) : fs'.Clear pid := fun name hname => h.ordinary (hc name hname)

/-- Nothing else comes under a temporary name as long as what has come is left alone. -/
theorem Files.Spares.clear {wd : WorkingDir} {paths : List Path} {fs fs' : Files}
    (h : fs.Spares wd paths fs') {pid : Nat} (hc : fs.Clear pid) : fs'.Clear pid :=
  fun name hname => h.ordinary (hc name hname)

/-! ## Programs that add little -/

/-- Whether starting a program with some arguments always brings clear files into a relation to what
they were. -/
def Machine.Relates (m : Machine) (program : String) (argv : List String)
    (R : Files → Files → Prop) : Prop :=
  ∀ asScript blocked fs o, fs.Clear m.pid → m.start asScript program argv blocked fs = .ok o →
    R fs o.files

/-- Starting a program with some arguments adds no regular files but such as are found afterwards at
some paths, and keeps directories, links and devices. -/
def Machine.Adds (m : Machine) (program : String) (argv : List String) (made : List Path) : Prop :=
  m.Relates program argv fun fs fs' => fs.Adds m.cwd made fs'

/-- Starting a program with some arguments adds nothing but directories, and what some paths led to
they still lead to. -/
def Machine.Spares (m : Machine) (program : String) (argv : List String) (paths : List Path) :
    Prop :=
  m.Relates program argv fun fs fs' => fs.Spares m.cwd paths fs'

/-- A program that adds nothing spares everything. -/
theorem Machine.Adds.spares {m : Machine} {program : String} {argv : List String}
    (h : m.Adds program argv []) (paths : List Path) : m.Spares program argv paths :=
  fun asScript blocked fs o hclear hstart => (h asScript blocked fs o hclear hstart).spares paths

/-- The question by which a compiler cache is looked for. -/
def Toolset.cacheQuestion : Command :=
  { program := "ccache", args := ["--version"], discardStderr := true }

/-- Whether a path is the one output that a command names. -/
def Command.HasOutput (c : Command) (p : Path) : Prop :=
  ∃ before after, c.words = before ++ "-o" :: p.text :: after ∧
    "-o" ∉ before ∧ "-o" ∉ p.text :: after

/-- A command that names an output has no other. -/
theorem Command.HasOutput.eq {c : Command} {p q : Path} (h : c.HasOutput p)
    (before after : List String) (hq : c.words = before ++ "-o" :: q.text :: after) : p = q := by
  obtain ⟨before', after', hp, hbefore, hafter⟩ := h
  rw [hp, List.append_cons_inj_of_notMem hbefore hafter] at hq
  obtain ⟨-, -, htail⟩ := hq
  have htext : p.text = q.text := (List.cons.inj htail).1
  cases p
  cases q
  cases htext
  rfl

/-- The files that are meant to stay: the record of the compiler and the program of the probe. -/
def Config.kept (cfg : Config) : List Path :=
  [ToolchainRecord.place cfg.cacheRoot, cfg.cacheRoot.join ⟨"cxx11check.cpp"⟩]

/-- Whether the program of a command adds no more than it should. A compiler is known by the
language standard that it is given, and may write its output; who answers a question adds nothing;
and what starts the script's program adds nothing but directories, and spares what the tool has
made. -/
structure Command.IsModest (m : Machine) (cfg : Config) (c : Command) : Prop where
  compiling : Toolset.languageStandard ∈ c.args →
    ∃ outputs, (∀ p ∈ outputs, c.HasOutput p) ∧ m.Adds c.program c.words outputs
  answering : c = Toolset.cacheQuestion ∨ Package.IsQuestion cfg.pkgConfig c →
    m.Adds c.program c.words []
  launching : ∀ executable args,
    (Launcher.ofDebugger cfg.debugger).command? executable args = some c →
      m.Spares c.program c.words (executable :: cfg.kept)

/-- Whether an event tells of no program that adds more than it should. -/
def Event.IsModest (m : Machine) (cfg : Config) : Event → Prop
  | .note (.running c) => c.IsModest m cfg
  | .note (.runningAs program argv) =>
      m.Spares program.text (if argv.isEmpty then [program.text] else argv) (program :: cfg.kept)
  | _ => True

/-- Whether a command is one for a compiler, and its output, if it names one, is one of some
paths. -/
def Command.Compiles (c : Command) (outputs : List Path) : Prop :=
  Toolset.languageStandard ∈ c.args ∧ ∀ p, c.HasOutput p → p ∈ outputs

namespace Host

variable {P : Event → Prop} {a b c : Host}

/-- What has been written down in a stretch has been written down in its parts. -/
theorem Wrote.split (hw : Wrote P a c) (hab : Retains a b) (hbc : Retains b c) :
    Wrote P a b ∧ Wrote P b c := by
  obtain ⟨es, hes, hP⟩ := hw
  obtain ⟨first, hfirst, -⟩ := hab
  obtain ⟨second, hsecond, -⟩ := hbc
  have hsplit : es = first ++ second := by
    rw [hsecond, hfirst, List.append_assoc] at hes
    exact (List.append_cancel_left hes).symm
  subst hsplit
  exact ⟨⟨first, hfirst, fun e he => hP e (List.mem_append_left _ he)⟩,
    ⟨second, hsecond, fun e he => hP e (List.mem_append_right _ he)⟩⟩

/-- What has been written down at the beginning of a stretch is among what it has written down. -/
theorem Wrote.first {n : Note} (hw : Wrote P a c) (hr : Retains (a.noted n) c) :
    P (.note n) := by
  have hstart : Retains a (a.noted n) := .single rfl trivial
  obtain ⟨⟨es, hes, hP⟩, -⟩ := hw.split hstart hr
  have hone : es = [.note n] := (List.append_cancel_left hes).symm
  exact hP (.note n) (by rw [hone]; exact List.mem_singleton_self _)

end Host

/-- A modest compiler adds at most its output. -/
theorem Command.Compiles.adds {m : Machine} {cfg : Config} {c : Command} {outputs : List Path}
    (hc : c.Compiles outputs) (hm : c.IsModest m cfg) (others : List Path) :
    m.Adds c.program c.words (outputs ++ others) := by
  obtain ⟨made, hmade, hadds⟩ := hm.compiling hc.1
  intro asScript blocked fs o hclear hstart
  refine (hadds asScript blocked fs o hclear hstart).mono fun p hp => ?_
  exact List.mem_append_left _ (hc.2 p (hmade p hp))

/-- Who answers a question modestly adds nothing. -/
theorem Command.IsModest.adds {m : Machine} {cfg : Config} {c : Command} (hm : c.IsModest m cfg)
    (hc : c = Toolset.cacheQuestion ∨ Package.IsQuestion cfg.pkgConfig c) (made : List Path) :
    m.Adds c.program c.words made := fun asScript blocked fs o hclear hstart =>
  (hm.answering hc asScript blocked fs o hclear hstart).of_nil

/-- From `h` to `h'` the files come into a relation to what they were, if the programs that are
started are modest and nothing has a temporary name but regular files and directories. -/
def Relates (m : Machine) (cfg : Config) (R : Files → Files → Prop) (h h' : Host) : Prop :=
  Retains h h' ∧ (Wrote (Event.IsModest m cfg) h h' → h.files.Clear m.pid → R h.files h'.files)

/-- From `h` to `h'` regular files are added at most at the paths of `made` and at those that are
meant to stay. -/
def Leaves (m : Machine) (cfg : Config) (made : List Path) : Host → Host → Prop :=
  Relates m cfg fun fs fs' => fs.Adds m.cwd (made ++ cfg.kept) fs'

/-- Two stretches bring the files into a relation if each brings them into one and both together
come to it. -/
theorem Relates.trans {m : Machine} {cfg : Config} {R R' S : Files → Files → Prop}
    {h h' h'' : Host} (hr : Relates m cfg R h h') (hr' : Relates m cfg R' h' h'')
    (hclear : ∀ {fs fs'}, R fs fs' → fs.Clear m.pid → fs'.Clear m.pid)
    (hboth : ∀ {fs fs' fs''}, R fs fs' → R' fs' fs'' → fs.Clear m.pid → S fs fs'') :
    Relates m cfg S h h'' := by
  refine ⟨hr.1.trans hr'.1, fun hw hc => ?_⟩
  obtain ⟨hw₁, hw₂⟩ := hw.split hr.1 hr'.1
  have hfirst := hr.2 hw₁ hc
  exact hboth hfirst (hr'.2 hw₂ (hclear hfirst hc)) hc

/-- What is done afterwards without touching the files changes nothing in that. -/
theorem Relates.still {m : Machine} {cfg : Config} {R : Files → Files → Prop} {h h' h'' : Host}
    (hr : Relates m cfg R h h') (hretains : Retains h' h'') (hfiles : h''.files = h'.files) :
    Relates m cfg R h h'' :=
  ⟨hr.1.trans hretains, fun hw hc => hfiles ▸ hr.2 (hw.split hr.1 hretains).1 hc⟩

namespace Leaves

variable {m : Machine} {cfg : Config} {made made' : List Path} {h h' h'' : Host}

/-- What is known to be added is added. -/
theorem of_adds (hr : Retains h h') (ha : h.files.Adds m.cwd (made ++ cfg.kept) h'.files) :
    Leaves m cfg made h h' := ⟨hr, fun _ _ => ha⟩

/-- Where the files stay as they are nothing is added. -/
theorem of_files (hr : Retains h h') (hf : h'.files = h.files) : Leaves m cfg made h h' :=
  of_adds hr (hf ▸ .refl _ _ _)

/-- Nothing happens. -/
theorem refl (h : Host) : Leaves m cfg made h h := of_files (.of_eq rfl) rfl

/-- More paths may be known. -/
theorem mono (hl : Leaves m cfg made h h') (hsub : made ⊆ made') : Leaves m cfg made' h h' :=
  ⟨hl.1, fun hw hc => (hl.2 hw hc).mono (List.append_subset.mpr
    ⟨fun _ hp => List.mem_append_left _ (hsub hp), List.subset_append_right _ _⟩)⟩

/-- What one stretch and then another leave is what both leave. -/
theorem trans (hl : Leaves m cfg made h h') (hl' : Leaves m cfg made h' h'') :
    Leaves m cfg made h h'' :=
  Relates.trans hl hl' (fun ha hc => ha.ways.clear hc) fun ha ha' _ => ha.trans ha'

/-- A sequence leaves what its parts leave. -/
theorem bind {α β : Type} {x : StateM Host α} {f : α → StateM Host β}
    (hx : Leads x h fun _ h' => Leaves m cfg made h h')
    (hf : ∀ a h', Leads (f a) h' fun _ h'' => Leaves m cfg made h' h'') :
    Leads (x >>= f) h fun _ h'' => Leaves m cfg made h h'' :=
  Leads.bind hx fun a h' hl => (hf a h').mono fun _ _ hl' => hl.trans hl'

end Leaves

variable {m : Machine} {cfg : Config} {made : List Path}

/-! ## Steps of a host -/

namespace Host

/-- A change to the files leaves what it adds. -/
theorem leaves_change {α : Type} {step : Files → Except IoError (α × Files)} {h : Host}
    (hstep : ∀ {a fs}, step h.files = .ok (a, fs) → h.files.Adds m.cwd (made ++ cfg.kept) fs) :
    Leads (change step) h fun _ h' => Leaves m cfg made h h' := by
  cases hs : step h.files with
  | error e =>
    rw [leads_of_run (run_change_error hs)]
    exact .refl h
  | ok r =>
    rw [leads_of_run (run_change_ok hs)]
    exact .of_adds (.of_eq rfl) (hstep hs)

/-- Creating a file leaves that file. -/
theorem leaves_create {p : Path} (hp : p ∈ made ++ cfg.kept) (h : Host) :
    Leads (create m p) h fun _ h' => Leaves m cfg made h h' :=
  leaves_change fun hs => (Files.adds_create hs).of_single hp

/-- Adding bytes to what has been opened leaves nothing. -/
theorem leaves_append (at_ : Location) (bytes : Bytes) (h : Host) :
    Leads (append at_ bytes) h fun _ h' => Leaves m cfg made h h' := by
  unfold append
  rw [leads_bind, leads_get]
  split
  · split
    · exact .of_files (.single rfl trivial) rfl
    · exact .refl h
  · refine leaves_change fun {a fs} hs => ?_
    cases ha : h.files.append at_ bytes with
    | error e => rw [ha] at hs; cases hs
    | ok fs' =>
      rw [ha] at hs
      cases hs
      exact (Files.adds_append ha).of_nil

/-- Writing a file leaves that file. -/
theorem leaves_write {p : Path} (hp : p ∈ made ++ cfg.kept) (bytes : Bytes) (h : Host) :
    Leads (write m p bytes) h fun _ h' => Leaves m cfg made h h' := by
  unfold write
  refine Leaves.bind (leaves_create hp h) fun r h₁ => ?_
  cases r with
  | error cause => exact .refl h₁
  | ok at_ => exact leaves_append at_ bytes h₁

/-- Making a directory together with those above it leaves no regular file. -/
theorem leaves_makeDirectories (p : Path) (h : Host) :
    Leads (makeDirectories m p) h fun _ h' => Leaves m cfg made h h' := by
  have hadds : h.files.Adds m.cwd (made ++ cfg.kept) (h.files.makeDirectories m.cwd p).2 :=
    (Files.adds_makeDirectories p).of_nil
  exact .of_adds (.of_eq rfl) hadds

/-- A program that is run to its end brings the files into the relation into which its start brings
them. -/
theorem relates_runToEnd {R : Files → Files → Prop} (hrefl : ∀ fs, R fs fs) {program : String}
    {argv : List String} (hp : m.Relates program argv R) (shownAs : String) (discardStderr : Bool)
    {h : Host} (hc : h.files.Clear m.pid) :
    Leads (runToEnd m program argv shownAs discardStderr) h fun _ h' => R h.files h'.files := by
  have hsignals : ∀ (f : Signals → Signals) (h : Host),
      Leads (modifySignals f) h fun _ h' => h'.files = h.files := fun f h => settle_files _
  unfold runToEnd runAttempt
  rw [leads_bind, leads_get]
  refine Leads.bind (hsignals _ h) fun _ h₁ hf₁ => ?_
  rw [leads_bind, leads_get]
  split
  · refine Leads.bind (hsignals _ h₁) fun _ h₂ hf₂ => ?_
    show R h.files h₂.files
    rw [hf₂, hf₁]
    exact hrefl _
  · next o hstart =>
    rw [leads_bind, leads_modify]
    refine Leads.bind (hsignals _ _) fun _ h₂ hf₂ => ?_
    show R h.files h₂.files
    have habsorb : ∀ shown, (h₁.absorb o shown).files = o.files := fun _ => settle_files _
    rw [hf₂, habsorb]
    rw [hf₁] at hstart
    exact hp _ _ _ _ hc hstart

/-- Work that begins with the note of a start brings the files into the relation into which it
brings them if what is started is modest. -/
theorem relates_of_start {R : Files → Files → Prop} {α : Type} {n : Note} {x : StateM Host α}
    {h : Host} (hretains : Leads x (h.noted n) fun _ h' => Retains (h.noted n) h')
    (hstart : Event.IsModest m cfg (.note n) → h.files.Clear m.pid →
      Leads x (h.noted n) fun _ h' => R h.files h'.files) :
    Leads (do note n; x) h fun _ h' => Relates m cfg R h h' := by
  rw [leads_bind, leads_note]
  exact ⟨.trans (.single rfl trivial) hretains, fun hw hc => hstart (hw.first hretains) hc⟩

/-- A command that is run brings the files into the relation into which its program brings them. -/
theorem relates_run {R : Files → Files → Prop} (hrefl : ∀ fs, R fs fs) {c : Command}
    (hc : c.IsModest m cfg → m.Relates c.program c.words R) (h : Host) :
    Leads (run m c) h fun _ h' => Relates m cfg R h h' := by
  unfold run
  exact relates_of_start (retains_runAttempt _ _ _ _) fun hmodest hclear =>
    relates_runToEnd hrefl (hc hmodest) _ _ hclear

/-- A program that is run under another name spares what the tool has made. -/
theorem relates_runAs (program : Path) (argv : List String) (h : Host) :
    Leads (runAs m program argv) h fun _ h' =>
      Relates m cfg (Files.Spares m.cwd (program :: cfg.kept)) h h' := by
  unfold runAs
  exact relates_of_start (retains_runAttempt _ _ _ _) fun hmodest hclear =>
    relates_runToEnd (fun fs => (Files.Adds.refl m.cwd [] fs).spares _) hmodest _ _ hclear

/-- A command whose output is collected leaves what its program adds. -/
theorem leaves_capture {c : Command}
    (hc : c.IsModest m cfg → m.Adds c.program c.words (made ++ cfg.kept)) (h : Host) :
    Leads (capture m c) h fun _ h' => Leaves m cfg made h h' := by
  unfold capture
  refine relates_of_start ?retains (fun hmodest hclear => ?start)
  case retains =>
    rw [leads_bind, leads_get]
    split
    · exact .of_eq rfl
    · rw [leads_bind, leads_modify]
      exact ⟨_, settle_events _, fun _ _ => trivial⟩
  case start =>
    rw [leads_bind, leads_get]
    split
    · exact .refl _ _ _
    · next o hstart =>
      rw [leads_bind, leads_modify]
      have habsorb : ∀ (h : Host) shown, (h.absorb o shown).files = o.files :=
        fun _ _ => settle_files _
      show h.files.Adds m.cwd (made ++ cfg.kept) (Host.absorb _ o _).files
      rw [habsorb]
      exact hc hmodest _ _ _ _ hclear hstart

/-- Changing the signals leaves nothing. -/
theorem leaves_modifySignals (f : Signals → Signals) (h : Host) :
    Leads (modifySignals f) h fun _ h' => Leaves m cfg made h h' :=
  .of_files (.of_eq (settle_events _)) (settle_files _)

/-- Writing a step down leaves nothing. -/
theorem leaves_note (n : Note) (h : Host) :
    Leads (note n) h fun _ h' => Leaves m cfg made h h' := .of_files (.single rfl trivial) rfl

/-- A warning leaves nothing. -/
theorem leaves_warn (w : Warning) (h : Host) :
    Leads (warn w) h fun _ h' => Leaves m cfg made h h' := .of_files (.single rfl trivial) rfl

/-- Removing a file brings the files into the relation into which its being gone brings them, or its
not being removed. -/
theorem relates_remove {R S : Files → Files → Prop} {p : Path} {base h : Host}
    (hr : Relates m cfg R base h)
    (hS : ∀ {fs}, R base.files h.files → base.files.Clear m.pid →
      (h.files.remove m.cwd p = .ok fs ∨
        fs = h.files ∧ ∃ cause, h.files.remove m.cwd p = .error cause) → S base.files fs) :
    Leads (remove m p) h fun _ h' => Relates m cfg S base h' := by
  have hremoved : ∀ h' : Host, h'.events = h.events →
      (h.files.remove m.cwd p = .ok h'.files ∨
        h'.files = h.files ∧ ∃ cause, h.files.remove m.cwd p = .error cause) →
      Relates m cfg S base h' := by
    intro h' hevents hcase
    have hretains : Retains h h' := .of_eq hevents
    exact ⟨hr.1.trans hretains, fun hw hc => hS (hr.2 (hw.split hr.1 hretains).1 hc) hc hcase⟩
  rcases run_remove m p h with ⟨fs, hok, hrun⟩ | ⟨cause, herror, hrun⟩
  · exact (leads_of_run hrun _).mpr (hremoved _ rfl (.inl hok))
  · exact (leads_of_run hrun _).mpr (hremoved _ rfl (.inr ⟨rfl, cause, herror⟩))

/-- A file with a temporary name that is removed, or could not be, is no longer left. -/
theorem leaves_remove {p : Path} {name : String} (hp : p.EndsIn name)
    (hname : IsTemporary m.pid name) {base h : Host} (hl : Leaves m cfg (p :: made) base h) :
    Leads (remove m p) h fun _ h' => Leaves m cfg made base h' :=
  relates_remove hl fun ha hc hr => Files.Adds.remove ha hp (ha.ways.clear hc name hname) hr

end Host

/-! ## Choosing a compiler -/

namespace Toolset

/-- The object of the probe. -/
def probeObject (root : Path) : Path := (root.join ⟨"cxx11check.cpp"⟩).withExtension "o"

/-- The object of the probe has its own name. -/
theorem endsIn_probeObject (root : Path) : (probeObject root).EndsIn "cxx11check.o" := by
  have hrelative : (⟨"cxx11check.cpp"⟩ : Path).isAbsolute = false := by decide
  have hname : Path.IsName "cxx11check.cpp".toList :=
    ⟨by decide, by decide, by decide, by decide⟩
  have hcut : Path.cutName (String.ofList "cxx11check.cpp".toList) =
      ("cxx11check", some "cpp") := by decide +kernel
  have htext : (root.join ⟨"cxx11check.cpp"⟩).text.toList =
      root.prefixText.toList ++ "cxx11check.cpp".toList := by
    rw [Path.join_of_relative root hrelative]
    exact String.toList_append
  have hobject : probeObject root = ⟨root.prefixText ++ "cxx11check" ++ ".o"⟩ := by
    have hdot : (Path.cutName (String.ofList "cxx11check.cpp".toList)).1 ≠ "." := by
      rw [hcut]
      decide
    rw [probeObject, Path.withExtension_of_split htext (Path.isLead_prefixText root) hname "o" hdot,
      hcut, String.ofList_toList]
    rfl
  refine ⟨root.prefixText.toList, ?_, Path.isLead_prefixText root,
    ⟨by decide, by decide, by decide, by decide⟩⟩
  rw [hobject]
  simp only [String.toList_append, List.append_assoc]
  rfl

/-- Asking for the compiler cache leaves nothing. -/
theorem leaves_findCache (h : Host) :
    Leads (findCache m) h fun _ h' => Leaves m cfg made h h' := by
  unfold findCache
  refine Leaves.bind (leaves_capture (fun hm => hm.adds (.inl rfl) _) h) fun r h₁ => ?_
  split
  · split
    · exact .refl h₁
    · exact leaves_warn _ h₁
  · exact leaves_warn _ h₁

/-- Trying a compiler leaves nothing but the program of the probe. -/
theorem leaves_isUsable (compiler : String) (h : Host) :
    Leads (isUsable m cfg.cacheRoot compiler) h fun _ h' => Leaves m cfg made h h' := by
  have hprobe : cfg.cacheRoot.join ⟨"cxx11check.cpp"⟩ ∈ made ++ cfg.kept :=
    List.mem_append_right made (List.mem_cons_of_mem _ List.mem_cons_self)
  have hobject : (probeCommand compiler (cfg.cacheRoot.join ⟨"cxx11check.cpp"⟩)
      (probeObject cfg.cacheRoot)).Compiles (probeObject cfg.cacheRoot :: made) := by
    refine ⟨List.mem_cons_self, fun p hp => ?_⟩
    have hone : p = probeObject cfg.cacheRoot :=
      hp.eq [compiler, languageStandard, "-c", (cfg.cacheRoot.join ⟨"cxx11check.cpp"⟩).text] [] rfl
    exact hone ▸ List.mem_cons_self
  unfold isUsable
  refine Leaves.bind (leaves_makeDirectories _ h) fun r h₁ => ?_
  cases r with
  | error cause => exact leaves_warn _ h₁
  | ok _ =>
    refine Leaves.bind (leaves_write hprobe _ h₁) fun r h₂ => ?_
    cases r with
    | error cause => exact leaves_warn _ h₂
    | ok _ =>
      -- The object comes, and goes at once.
      have hcapture : Leads (capture m (probeCommand compiler
          (cfg.cacheRoot.join ⟨"cxx11check.cpp"⟩) (probeObject cfg.cacheRoot))) h₂
          fun _ h₃ => Leaves m cfg (probeObject cfg.cacheRoot :: made) h₂ h₃ :=
        leaves_capture (fun hm => hobject.adds hm cfg.kept) h₂
      refine Leads.bind hcapture fun r h₃ hl₃ => ?_
      refine Leads.bind (leaves_remove (endsIn_probeObject cfg.cacheRoot) (.inr rfl) hl₃)
        fun _ h₄ hl₄ => ?_
      exact (leaves_note _ h₄).mono fun _ _ hl₅ => hl₄.trans hl₅

/-- Trying compilers leaves nothing but the program of the probe. -/
theorem leaves_firstUsable (compilers : List String) (h : Host) :
    Leads (firstUsable m cfg.cacheRoot compilers) h fun _ h' => Leaves m cfg made h h' := by
  induction compilers generalizing h with
  | nil => exact .refl h
  | cons compiler rest ih =>
    unfold firstUsable
    refine Leaves.bind (leaves_isUsable compiler h) fun usable h₁ => ?_
    split
    · exact .refl h₁
    · exact ih h₁

/-- Remembering a choice leaves the record. -/
theorem leaves_store (record : ToolchainRecord) (h : Host) :
    Leads (record.store m cfg.cacheRoot) h fun _ h' => Leaves m cfg made h h' := by
  have hplace : ToolchainRecord.place cfg.cacheRoot ∈ made ++ cfg.kept :=
    List.mem_append_right made List.mem_cons_self
  unfold ToolchainRecord.store
  refine Leaves.bind (leaves_makeDirectories _ h) fun r h₁ => ?_
  cases r with
  | error cause => exact .refl h₁
  | ok _ => exact leaves_write hplace _ h₁

/-- Looking for a compiler leaves nothing but what is meant to stay. -/
theorem leaves_probe (h : Host) :
    Leads (probe m cfg.cacheRoot) h fun _ h' => Leaves m cfg made h h' := by
  unfold probe
  refine Leaves.bind (leaves_findCache h) fun ccache h₁ => ?_
  refine Leaves.bind (leaves_firstUsable _ h₁) fun found h₂ => ?_
  cases found with
  | none => exact .refl h₂
  | some compiler =>
    refine Leaves.bind (leaves_store _ h₂) fun r h₃ => ?_
    cases r with
    | error cause => exact leaves_warn _ h₃
    | ok _ => exact .refl h₃

/-- Choosing a compiler leaves nothing but what is meant to stay. -/
theorem leaves_resolve {ts : Toolset} (hcfg : ts.config = cfg) (h : Host) :
    Leads (ts.resolve m) h fun _ h' => Leaves m cfg made h h' := by
  subst hcfg
  unfold resolve
  split
  · exact .refl h
  · exact leaves_findCache h
  · have hlookup : Leads (ToolchainRecord.lookup m ts.config.cacheRoot) h fun _ h' =>
        Leaves m ts.config made h h' := by
      unfold ToolchainRecord.lookup
      rw [leads_bind, leads_get]
      split
      · exact .refl h
      · split
        · exact leaves_note _ h
        · exact leaves_warn _ h
    refine Leaves.bind hlookup fun r h₁ => ?_
    cases r with
    | some record => exact .refl h₁
    | none => exact leaves_probe h₁

/-- Giving the compiler command leaves nothing but what is meant to stay. -/
theorem leaves_base {ts : Toolset} (hcfg : ts.config = cfg) (h : Host) :
    Leads (ts.base m) h fun _ h' => Leaves m cfg made h h' := by
  have hcompiler : Leads (ts.compiler m) h fun _ h' => Leaves m cfg made h h' := by
    unfold compiler
    split
    · exact .refl h
    · refine Leaves.bind (leaves_resolve hcfg h) fun r h₁ => ?_
      cases r with
      | error e => exact .refl h₁
      | ok words => exact leaves_note _ h₁
  unfold base
  refine Leaves.bind hcompiler fun r h₁ => ?_
  obtain ⟨r, ts'⟩ := r
  cases r with
  | error e => exact .refl h₁
  | ok words =>
    dsimp only
    split
    · exact .refl h₁
    · exact .refl h₁

/-- The compiler command gives the language standard. -/
theorem standard_base (ts : Toolset) (h : Host) :
    Leads (ts.base m) h fun r _ => ∀ c, r.1 = .ok c → languageStandard ∈ c.args := by
  unfold base
  refine Leads.skip fun r h₁ => ?_
  obtain ⟨r, ts'⟩ := r
  cases r with
  | error e => exact fun c hc => by cases hc
  | ok words =>
    dsimp only
    split
    · exact fun c hc => by cases hc
    · rintro c ⟨⟩
      exact List.mem_append_right _ (List.mem_singleton_self _)

end Toolset

/-! ## Finding places -/

namespace Placement

/-- Finding a place leaves at most the file there. -/
theorem leaves_find (p : Path) (h : Host) :
    Leads (find m cfg.cacheRoot p) h fun r h' =>
      ∀ made, (∀ place, r = .ok place → place.path ∈ made) → Leaves m cfg made h h' := by
  have hdirectory : ∀ made, h.files.Adds m.cwd made
      (h.files.withDirectory m.cwd (mirrored m cfg.cacheRoot p h)) := by
    intro made
    unfold Files.withDirectory
    split
    · exact (Files.adds_makeDirectories _).of_nil
    · exact .refl _ _ _
  refine (find_settles m cfg.cacheRoot p h).mono fun r h' hsettles made hmade => ?_
  cases hsettles with
  | beside ho =>
    have hadds := Files.adds_openAppend ho
    exact .of_adds (.of_eq rfl) (hadds.of_single (List.mem_append_left _ (hmade _ rfl)))
  | below _ ho =>
    have hadds := Files.adds_openAppend ho
    refine .of_adds (.single rfl trivial) ((hdirectory _).trans (hadds.of_single ?_))
    exact List.mem_append_left _ (hmade _ rfl)
  | nowhere => exact .of_adds (.of_eq rfl) (hdirectory _)

end Placement

end CxxScript

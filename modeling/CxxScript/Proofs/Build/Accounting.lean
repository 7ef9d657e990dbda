import CxxScript.Proofs.Build.Clearing
import CxxScript.Proofs.Build.Launching
import CxxScript.Proofs.Build.Making

/-!
# What a build accounts for

A build accounts for what it has made: every regular file that has come since some host is known to
one of its units, or is meant to stay. `Accounted` says so of a list of units, and each step of a
build keeps it: the collection, `collect_accounted`, the compilation, `compileUnits_accounted`, and
the link, `link_accounted`. What the units know is removed when the build clears up, so that nothing
is left then but the executable, `cleanup_accounted`.
-/

set_option autoImplicit false

namespace CxxScript

open Host CompilationUnit

/-- The regular files that have come since `base` are known to the units, or meant to stay. The
first unit is a source, and no other has an executable. -/
structure Accounted (m : Machine) (cfg : Config) (base : Host) (us : List CompilationUnit)
    (h : Host) : Prop where
  sound : ∀ u ∈ us, u.Sound m.pid
  first : ∃ primary others, us = primary :: others ∧ primary.kind = .source ∧
    ∀ u ∈ others, u.executable? = none
  leaves : Leaves m cfg (allMade us) base h

variable {m : Machine} {cfg : Config} {base h h' : Host}

namespace Accounted

variable {us done todo more : List CompilationUnit} {u u' : CompilationUnit}

/-- There is at least the first unit. -/
theorem ne_nil (ha : Accounted m cfg base us h) : us ≠ [] := by
  obtain ⟨primary, others, rfl, -⟩ := ha.first
  exact List.cons_ne_nil _ _

/-- Something is done by which nothing is left but what the units know. -/
theorem host (ha : Accounted m cfg base us h) (hl : Leaves m cfg (allMade us) h h') :
    Accounted m cfg base us h' := ⟨ha.sound, ha.first, ha.leaves.trans hl⟩

/-- Another unit stands in the place of one of them, with less or more that has been made. -/
theorem replace (done : List CompilationUnit) (ha : Accounted m cfg base (done ++ u :: todo) h)
    (hkind : u'.kind = u.kind)
    (hsound : u.Sound m.pid → u'.Sound m.pid)
    (hexecutable : done = [] ∨ (u.executable? = none → u'.executable? = none))
    (hleaves : ∀ others, Leaves m cfg (u.made ++ others) base h →
      Leaves m cfg (u'.made ++ others) base h') : Accounted m cfg base (done ++ u' :: todo) h' := by
  have hmem : ∀ {p : Path} {v : CompilationUnit}, p ∈ allMade (done ++ v :: todo) ↔
      p ∈ v.made ++ (allMade done ++ allMade todo) := by
    intro p v
    simp only [allMade, List.flatMap_append, List.flatMap_cons, List.mem_append]
    exact or_left_comm
  refine ⟨fun v hv => ?_, ?_, ?_⟩
  · rcases List.mem_append.mp hv with hv | hv
    · exact ha.sound v (List.mem_append_left _ hv)
    · rcases List.mem_cons.mp hv with rfl | hv
      · exact hsound (ha.sound u (List.mem_append_right _ List.mem_cons_self))
      · exact ha.sound v (List.mem_append_right _ (List.mem_cons_of_mem _ hv))
  · obtain ⟨primary, others, hsplit, hsource, hnone⟩ := ha.first
    cases done with
    | nil =>
      cases hsplit
      exact ⟨u', todo, rfl, hkind.trans hsource, hnone⟩
    | cons v done =>
      cases hsplit
      refine ⟨primary, done ++ u' :: todo, rfl, hsource, fun v hv => ?_⟩
      rcases List.mem_append.mp hv with hv | hv
      · exact hnone v (List.mem_append_left _ hv)
      · rcases List.mem_cons.mp hv with rfl | hv
        · exact hexecutable.resolve_left (List.cons_ne_nil _ _)
            (hnone u (List.mem_append_right _ List.mem_cons_self))
        · exact hnone v (List.mem_append_right _ (List.mem_cons_of_mem _ hv))
  · have hl := hleaves (allMade done ++ allMade todo) (ha.leaves.mono fun p hp => hmem.mp hp)
    exact hl.mono fun p hp => hmem.mpr hp

/-- There is work on one of the units, which does not concern its executable, or on the first. -/
theorem work (ha : Accounted m cfg base (done ++ u :: todo) h) (hw : u.Works m cfg h u' h')
    (hexecutable : done = [] ∨ u'.executable? = u.executable?) :
    Accounted m cfg base (done ++ u' :: todo) h' := by
  refine ha.replace done hw.1.kind hw.1.sound
    (hexecutable.imp_right fun heq hnone => heq.trans hnone) fun others hl => ?_
  have hsub : u.made ++ others ⊆ u'.made ++ others :=
    List.append_subset.mpr ⟨fun p hp => List.mem_append_left _ (hw.1.made hp),
      List.subset_append_right _ _⟩
  exact (hl.mono hsub).trans (hw.2.mono (List.subset_append_left _ _))

/-- Units join for which nothing has been made. -/
theorem join (ha : Accounted m cfg base us h)
    (hmore : ∀ u ∈ more, u.Sound m.pid ∧ u.made = []) : Accounted m cfg base (us ++ more) h := by
  refine ⟨fun u hu => ?_, ?_, ha.leaves.mono fun p hp => ?_⟩
  · rcases List.mem_append.mp hu with hu | hu
    · exact ha.sound u hu
    · exact (hmore u hu).1
  · obtain ⟨primary, others, rfl, hkind, hnone⟩ := ha.first
    refine ⟨primary, others ++ more, rfl, hkind, fun u hu => ?_⟩
    rcases List.mem_append.mp hu with hu | hu
    · exact hnone u hu
    · rw [Option.eq_none_iff_forall_ne_some]
      intro p hp
      have hmem : p ∈ u.made := mem_made.mpr (.inr (.inr hp))
      rw [(hmore u hu).2] at hmem
      cases hmem
  · rw [allMade, List.flatMap_append]
    exact List.mem_append_left _ hp

/-- Somebody looks for an interrupt. -/
theorem poll (ha : Accounted m cfg base us h) :
    Leads (Host.poll m) h fun _ h' => Accounted m cfg base us h' :=
  ((leavingFrame m cfg (allMade us)).poll h).mono fun _ _ => ha.host

end Accounted

/-! ## Collecting -/

namespace Discovery

/-- What is collected is accounted for. -/
theorem collect_accounted (fuel : Nat) (done : List CompilationUnit)
    {todo : List CompilationUnit} {ts : Toolset}
    (ha : Accounted m cfg base (done ++ todo) h) :
    Leads (collect m cfg fuel done todo ts) h fun r h' =>
      Accounted m cfg base r.2.1 h' ∧ r.2.2.config = ts.config := by
  induction fuel generalizing done todo ts h with
  | zero =>
    cases todo with
    | nil => exact ⟨by rwa [List.append_nil] at ha, rfl⟩
    | cons u todo => exact ⟨ha, rfl⟩
  | succ fuel ih =>
    cases todo with
    | nil => exact ⟨by rwa [List.append_nil] at ha, rfl⟩
    | cons u todo =>
      unfold collect
      split
      · refine ih _ ?_
        rwa [List.append_assoc]
      · next hunscanned =>
        have huncopied : u.copied = false :=
          (ha.sound u (List.mem_append_right _ List.mem_cons_self)).uncopied
            (Bool.eq_false_iff.mpr hunscanned)
        have hscan : Leads (u.scan m cfg) h fun r h' => u.Works m cfg h r.2 h' ∧
            r.2.executable? = u.executable? ∧
              ∀ found, r.1 = .ok found → ∀ f ∈ found, f.Sound m.pid ∧ f.made = [] :=
          ⟨scan_works huncopied h, scan_drafts u h⟩
        refine Leads.bind hscan fun r h₁ hr => ?_
        obtain ⟨r, u'⟩ := r
        obtain ⟨hworks, hexecutable, hdrafts⟩ := hr
        have ha' : Accounted m cfg base (done ++ u' :: todo) h₁ := ha.work hworks (.inr hexecutable)
        cases r with
        | error e => exact ⟨ha', rfl⟩
        | ok found =>
          refine Leads.bind (takeIn_outcome (done ++ u' :: todo) u' found ts h₁)
            fun r h₂ htaken => ?_
          obtain ⟨ts', joined⟩ := r
          obtain ⟨hjoined, htoolset, hfiles, hwrote⟩ := htaken
          have hjoined : joined = fresh (done ++ u' :: todo) found := hjoined
          have htoolset : ts' = ts.pushed u'.flags .normal := htoolset
          have hconfig : ts'.config = ts.config := by
            rw [htoolset, Toolset.pushed_normal]
          have hretains : Retains h₁ h₂ := hwrote.mono fun _ _ => trivial
          have hmore : ∀ v ∈ joined, v.Sound m.pid ∧ v.made = [] := by
            intro v hv
            rw [hjoined] at hv
            exact hdrafts found rfl v (mem_of_mem_fresh hv)
          have hnext : Accounted m cfg base ((done ++ [u']) ++ (todo ++ joined)) h₂ := by
            have hall := (ha'.host (.of_files hretains hfiles)).join hmore
            simpa only [List.append_assoc, List.cons_append, List.nil_append] using hall
          exact (ih _ hnext).mono fun _ _ hr => ⟨hr.1, hr.2.trans hconfig⟩

end Discovery

/-! ## Compiling and linking -/

namespace Toolset

/-- The command that compiles a unit writes the unit's object. -/
theorem compileCommand_works {ts : Toolset} (hcfg : ts.config = cfg) (u : CompilationUnit)
    (h : Host) : Leads (ts.compileCommand m u) h fun r h' => u.Works m cfg h r.2.2 h' ∧
      ∀ c, r.1 = .ok c → c.Compiles r.2.2.made := by
  subst hcfg
  unfold compileCommand
  refine Leads.bind (object_works u h) fun r h₁ hr => ?_
  obtain ⟨r, u'⟩ := r
  obtain ⟨hworks, -, hobject⟩ := hr
  cases r with
  | error cause => exact ⟨hworks, fun c hc => by cases hc⟩
  | ok object =>
    have hbase : Leads (ts.base m) h₁ fun r h₂ => Leaves m ts.config u'.made h₁ h₂ ∧
        ∀ c, r.1 = .ok c → languageStandard ∈ c.args :=
      ⟨leaves_base rfl h₁, standard_base ts h₁⟩
    refine Leads.bind hbase fun r h₂ hr => ?_
    obtain ⟨r, ts'⟩ := r
    obtain ⟨hl, hstandard⟩ := hr
    have hdone := hworks.trans (.of_leaves hl)
    cases r with
    | error e => exact ⟨hdone, fun c hc => by cases hc⟩
    | ok c =>
      refine ⟨hdone, ?_⟩
      rintro c' ⟨⟩
      refine ⟨List.mem_append_left _ (hstandard c rfl), fun p hp => ?_⟩
      have hp : p = object := by
        refine hp.eq (c.words ++ ["-c", u'.processedPath.text])
          (ts'.flags ++ u'.privateFlags ++ ts'.lateFlags) ?_
        simp [Command.words, Command.withArgs, compileArgs]
      rw [hp]
      exact hobject object rfl

/-- A command that is performed leaves its output, if it is one for a compiler. -/
theorem leaves_perform {made : List Path} {c : Command} (hc : c.Compiles made) (h : Host) :
    Leads (perform m c) h fun _ h' => Leaves m cfg made h h' := by
  unfold perform
  have hrun : Leads (run m c) h fun _ h₁ => Leaves m cfg made h h₁ :=
    relates_run (Files.Adds.refl _ _) (fun hm => hc.adds hm cfg.kept) h
  refine Leaves.bind hrun fun r h₁ => ?_
  cases r with
  | error cause => exact .refl h₁
  | ok status =>
    dsimp only
    split <;> exact .refl h₁

/-- Compiling a unit leaves its object. -/
theorem compile_works {ts : Toolset} (hcfg : ts.config = cfg) (u : CompilationUnit) (h : Host) :
    Leads (ts.compile m u) h fun r h' => u.Works m cfg h r.2.2 h' := by
  unfold compile
  refine Leads.bind (compileCommand_works hcfg u h) fun r h₁ hr => ?_
  obtain ⟨r, ts', u'⟩ := r
  obtain ⟨hworks, hcompiles⟩ := hr
  cases r with
  | error e => exact hworks
  | ok c =>
    exact Leads.bind (leaves_perform (hcompiles c rfl) h₁)
      fun r h₂ hl => hworks.trans (.of_leaves hl)

/-- Asking units for their objects is accounted for. -/
theorem objects_accounted (done : List CompilationUnit) {us : List CompilationUnit}
    (ha : Accounted m cfg base (done ++ us) h) :
    Leads (objects m cfg us) h fun r h' => Accounted m cfg base (done ++ r.2) h' := by
  induction us generalizing done h with
  | nil => exact ha
  | cons u rest ih =>
    have hnext : ∀ {u' h₁}, Accounted m cfg base (done ++ u' :: rest) h₁ →
        Leads (objects m cfg rest) h₁ fun r h' => Accounted m cfg base (done ++ u' :: r.2) h' := by
      intro u' h₁ ha
      rw [← List.singleton_append, ← List.append_assoc] at ha
      refine (ih _ ha).mono fun r h' hr => ?_
      rwa [List.append_assoc, List.singleton_append] at hr
    unfold objects
    split
    · exact Leads.bind (hnext ha) fun r h₁ hr => hr
    · refine Leads.bind (object_works u h) fun r h₁ hr => ?_
      obtain ⟨r, u'⟩ := r
      obtain ⟨hworks, hexecutable, -⟩ := hr
      have ha' : Accounted m cfg base (done ++ u' :: rest) h₁ := ha.work hworks (.inr hexecutable)
      cases r with
      | error cause => exact ha'
      | ok path => exact Leads.bind (hnext ha') fun r h₂ hr => hr

/-- The places for a link are accounted for, and the executable is that of the first unit. -/
theorem linkPlaces_accounted (hnone : cfg.executable = none) {us : List CompilationUnit}
    (ha : Accounted m cfg base us h) :
    Leads (linkPlaces m cfg us) h fun r h' => Accounted m cfg base r.2 h' ∧
      ∀ executable paths, r.1 = .ok (executable, paths) →
        ∃ primary others, r.2 = primary :: others ∧ primary.executable? = some executable := by
  obtain ⟨u, rest, rfl, hkind, -⟩ := ha.first
  unfold linkPlaces
  rw [isHeader_of_source hkind, if_neg Bool.false_ne_true]
  refine Leads.bind (executable_works hnone u h) fun r h₁ hr => ?_
  obtain ⟨r, u'⟩ := r
  obtain ⟨hworks, hexecutable⟩ := hr
  have ha' : Accounted m cfg base ([] ++ u' :: rest) h₁ := Accounted.work ha hworks (.inl rfl)
  cases r with
  | error cause => exact ⟨ha', fun _ _ hr => by cases hr⟩
  | ok executable =>
    have hobjects : Leads (objects m cfg (u' :: rest)) h₁ fun r h' =>
        Accounted m cfg base r.2 h' ∧ KeepAll (u' :: rest) r.2 :=
      ⟨objects_accounted [] ha', keepAll_objects _ h₁⟩
    refine Leads.bind hobjects fun r h₂ hr => ?_
    obtain ⟨r, units⟩ := r
    obtain ⟨ha₂, hkeep⟩ := hr
    cases r with
    | error cause => exact ⟨ha₂, fun _ _ hr => by cases hr⟩
    | ok paths =>
      refine ⟨ha₂, ?_⟩
      rintro executable' paths' ⟨⟩
      cases hkeep with
      | cons hkeeps _ => exact ⟨_, _, rfl, hkeeps.executable?.trans (hexecutable executable rfl)⟩

/-- The command for a link is accounted for: it writes the executable, that of the first unit. -/
theorem linkCommand_accounted (hnone : cfg.executable = none) {ts : Toolset}
    (hcfg : ts.config = cfg) {us : List CompilationUnit} (ha : Accounted m cfg base us h) :
    Leads (ts.linkCommand m us) h fun r h' => Accounted m cfg base r.2.2 h' ∧ r.2.1.config = cfg ∧
      ∀ c executable, r.1 = .ok (c, executable) → c.Compiles (allMade r.2.2) ∧
        ∃ primary others, r.2.2 = primary :: others ∧ primary.executable? = some executable := by
  subst hcfg
  unfold linkCommand
  refine Leads.bind (linkPlaces_accounted hnone ha) fun r h₁ hr => ?_
  obtain ⟨r, units⟩ := r
  obtain ⟨ha₁, hfirst⟩ := hr
  cases r with
  | error e => exact ⟨ha₁, rfl, fun _ _ hr => by cases hr⟩
  | ok places =>
    obtain ⟨executable, paths⟩ := places
    have hbase : Leads (ts.base m) h₁ fun r h' =>
        Leaves m ts.config (allMade units) h₁ h' ∧ r.2.config = ts.config ∧
          ∀ c, r.1 = .ok c → languageStandard ∈ c.args :=
      ⟨leaves_base rfl h₁, config_base m ts h₁, standard_base ts h₁⟩
    refine Leads.bind hbase fun r h₂ hr => ?_
    obtain ⟨r, ts'⟩ := r
    obtain ⟨hl, hconfig, hstandard⟩ := hr
    have ha₂ := ha₁.host hl
    cases r with
    | error e => exact ⟨ha₂, hconfig, fun _ _ hr => by cases hr⟩
    | ok c =>
      obtain ⟨primary, others, hunits, hsome⟩ := hfirst executable paths rfl
      refine ⟨ha₂, hconfig, ?_⟩
      rintro c' executable' ⟨⟩
      refine ⟨⟨List.mem_append_left _ (hstandard c rfl), fun p hp => ?_⟩, primary, others, hunits,
        hsome⟩
      have hp : p = executable := by
        refine hp.eq c.words (paths.map Path.text ++ ts'.flags) ?_
        simp [Command.words, Command.withArgs, linkArgs]
      have hunits : units = primary :: others := hunits
      have hprimary : primary ∈ units := hunits ▸ List.mem_cons_self
      rw [hp]
      exact made_subset_allMade hprimary (mem_made.mpr (.inr (.inr hsome)))

/-- The link is accounted for, and the executable that it gives is that of the first unit. -/
theorem link_accounted (hnone : cfg.executable = none) {ts : Toolset} (hcfg : ts.config = cfg)
    {us : List CompilationUnit} (ha : Accounted m cfg base us h) :
    Leads (ts.link m us) h fun r h' => Accounted m cfg base r.2.2 h' ∧ r.2.1.config = cfg ∧
      ∀ executable, r.1 = .ok executable →
        ∃ primary others, r.2.2 = primary :: others ∧ primary.executable? = some executable := by
  unfold link
  refine Leads.bind (linkCommand_accounted hnone hcfg ha) fun r h₁ hr => ?_
  obtain ⟨r, ts', units⟩ := r
  obtain ⟨ha₁, hconfig, hcommand⟩ := hr
  cases r with
  | error e => exact ⟨ha₁, hconfig, fun _ hr => by cases hr⟩
  | ok command =>
    obtain ⟨c, executable⟩ := command
    obtain ⟨hcompiles, hfirst⟩ := hcommand c executable rfl
    have hperform : Leads (perform m c) h₁ fun _ h₂ => Leaves m cfg (allMade units) h₁ h₂ :=
      leaves_perform hcompiles h₁
    refine Leads.bind hperform fun r h₂ hl => ?_
    have ha₂ := ha₁.host hl
    cases r with
    | error e => exact ⟨ha₂, hconfig, fun _ hr => by cases hr⟩
    | ok _ =>
      refine ⟨ha₂, hconfig, ?_⟩
      rintro executable' ⟨⟩
      exact hfirst

end Toolset

/-! ## Clearing up -/

namespace CompilationUnit

/-- What the tool does to remove a file brings the files into the relation into which the removal
brings them. -/
theorem relates_removeFile {R S : Files → Files → Prop} {p : Path} (hr : Relates m cfg R base h)
    (hS : ∀ {fs}, R base.files h.files → base.files.Clear m.pid →
      (h.files.remove m.cwd p = .ok fs ∨
        fs = h.files ∧ ∃ cause, h.files.remove m.cwd p = .error cause) → S base.files fs) :
    Leads (removeFile m p) h fun _ h' => Relates m cfg S base h' := by
  unfold removeFile
  refine Leads.bind (relates_remove hr hS) fun r h₁ hr₁ => ?_
  cases r with
  | error cause => exact hr₁.still (.single rfl trivial) rfl
  | ok _ => exact hr₁.still (.single rfl trivial) rfl

/-- A file that carries the token is no longer left once it has been removed. -/
theorem leaves_removeFile {p : Path} (hp : Carries m.pid p) {made : List Path}
    (hl : Leaves m cfg (p :: made) base h) :
    Leads (removeFile m p) h fun _ h' => Leaves m cfg made base h' := by
  obtain ⟨name, hend, hname⟩ := hp
  exact relates_removeFile hl fun ha hc hr =>
    Files.Adds.remove ha hend (ha.ways.clear hc name hname) hr

/-- Once a sound unit has been cleared up nothing is left of it but its executable. -/
theorem leaves_cleanup (hsave : cfg.saveTemps = false) {u : CompilationUnit}
    (hs : u.Sound m.pid) {others : List Path} (hl : Leaves m cfg (u.made ++ others) base h) :
    Leads (u.cleanup m cfg) h fun _ h' =>
      Leaves m cfg (u.executable?.toList ++ others) base h' := by
  have hcopy : u.copied = true → Leads (removeFile m u.copy) h fun _ h₁ =>
      Leaves m cfg (u.object?.toList ++ u.executable?.toList ++ others) base h₁ := by
    intro hcopied
    refine leaves_removeFile hs.carries_copy ?_
    rwa [made, if_pos hcopied] at hl
  have huncopied : ¬ u.copied = true →
      Leaves m cfg (u.object?.toList ++ u.executable?.toList ++ others) base h := by
    intro hcopied
    rwa [made, if_neg hcopied] at hl
  unfold cleanup
  rw [hsave, if_neg Bool.false_ne_true]
  dsimp only
  cases hobject : u.object? with
  | none =>
    rw [hobject] at hcopy huncopied
    split
    · next hcopied => exact Leads.bind (hcopy hcopied) fun _ h₁ hl₁ => hl₁
    · next hcopied => exact huncopied hcopied
  | some object =>
    rw [hobject] at hcopy huncopied
    have hlast : ∀ h₁, Leaves m cfg ([object] ++ u.executable?.toList ++ others) base h₁ →
        Leads (removeFile m object) h₁ fun _ h₂ =>
          Leaves m cfg (u.executable?.toList ++ others) base h₂ :=
      fun h₁ hl₁ => leaves_removeFile (hs.object object hobject) hl₁
    split
    · next hcopied =>
      refine Leads.bind (hcopy hcopied) fun _ h₁ hl₁ => ?_
      exact Leads.bind (hlast h₁ hl₁) fun _ h₂ hl₂ => hl₂
    · next hcopied => exact Leads.bind (hlast h (huncopied hcopied)) fun _ h₁ hl₁ => hl₁

/-- Once a sound unit has lost its executable nothing is left of it but its copy and its object. -/
theorem leaves_removeExecutable {tools : Config} {u : CompilationUnit} (hs : u.Sound m.pid)
    {others : List Path} (hl : Leaves m cfg (u.made ++ others) base h) :
    Leads (u.removeExecutable m tools) h fun u' h' =>
      Leaves m cfg (u'.made ++ others) base h' := by
  unfold removeExecutable
  split
  · exact hl
  · cases hexecutable : u.executable? with
    | none =>
      rw [made, hexecutable] at hl
      exact hl
    | some executable =>
      have hmade : ∀ p ∈ u.made, p = executable ∨
          p ∈ ({ u with executable? := none } : CompilationUnit).made := by
        intro p hp
        rcases mem_made.mp hp with hcopy | hobject | hlast
        · exact .inr (mem_made.mpr (.inl hcopy))
        · exact .inr (mem_made.mpr (.inr (.inl hobject)))
        · rw [hexecutable] at hlast
          cases hlast
          exact .inl rfl
      have hlast : Leaves m cfg
          (executable :: ({ u with executable? := none } : CompilationUnit).made ++ others)
          base h := by
        refine hl.mono fun p hp => ?_
        rcases List.mem_append.mp hp with hp | hp
        · rcases hmade p hp with rfl | hp
          · exact List.mem_cons_self
          · exact List.mem_cons_of_mem _ (List.mem_append_left _ hp)
        · exact List.mem_cons_of_mem _ (List.mem_append_right _ hp)
      exact Leads.bind (leaves_removeFile (hs.executable executable hexecutable) hlast)
        fun _ h₁ hl₁ => hl₁

end CompilationUnit

namespace Build

/-- Clearing up after units is accounted for: it takes away all but the executable. -/
theorem cleanUnits_accounted (done : List CompilationUnit) (hsave : cfg.saveTemps = false)
    {us : List CompilationUnit} (ha : Accounted m cfg base (done ++ us) h) :
    Leads (cleanUnits m cfg us) h fun us' h' => Accounted m cfg base (done ++ us') h' := by
  induction us generalizing done h with
  | nil => exact ha
  | cons u rest ih =>
    have hs : u.Sound m.pid := ha.sound u (List.mem_append_right _ List.mem_cons_self)
    have hcleanup : Leads (u.cleanup m cfg) h fun u' h' => u' = u.cleaned cfg ∧
        ∀ others, Leaves m cfg (u.made ++ others) base h →
          Leaves m cfg (u.executable?.toList ++ others) base h' :=
      ⟨u.cleanup_result h, fun others hl => leaves_cleanup hsave hs hl⟩
    unfold cleanUnits
    refine Leads.bind hcleanup fun u' h₁ hr => ?_
    obtain ⟨hcleaned, hleaves⟩ := hr
    have hu' : u' = { u with copied := false, object? := none } :=
      hcleaned.trans (cleaned_of_discarding hsave u)
    have ha' : Accounted m cfg base (done ++ u' :: rest) h₁ := by
      subst hu'
      refine ha.replace done rfl (fun hs => ⟨hs.copy, fun p hp => ?_, hs.executable, fun _ => rfl⟩)
        (.inr id) hleaves
      cases hp
    rw [← List.singleton_append, ← List.append_assoc] at ha'
    refine Leads.bind (ih _ ha') fun us' h₂ hr => ?_
    rwa [List.append_assoc, List.singleton_append] at hr

end Build

end CxxScript

import CxxScript.Proofs.Build.Accounting

/-!
# What is left of a build

A build accounts for what it has made from the moment it is set up, through whatever is asked of
it, `Reached.accounted`. When it has been built, what is left is its executable, and none if that
failed, `build_accounted`; starting its program spares that, `launch_spares`.
-/

set_option autoImplicit false

namespace CxxScript

open Host CompilationUnit

variable {m : Machine} {cfg : Config} {base h h' : Host}

namespace Build

/-! ## The steps of a build -/

/-- A build is for a configuration, and its units account for what has come since `base`. -/
structure IsAccounted (m : Machine) (cfg : Config) (base : Host) (b : Build) (h : Host) :
    Prop where
  config : b.config = cfg
  units : Accounted m cfg base b.units h

variable {b b' : Build} {ts ts' : Toolset}

/-- A build that has been set up has nothing to account for. -/
theorem isAccounted_ofPath (m : Machine) (h₀ : Host) (cfg : Config) (script : Path)
    (hl : Leaves m cfg [] base h) : IsAccounted m cfg base (.ofPath m h₀ cfg script) h := by
  refine ⟨rfl, fun u hu => ?_, ?_, hl⟩
  · rw [List.mem_singleton.mp hu]
    exact sound_ofPath m h₀ .source script
  · exact ⟨_, [], rfl, rfl, fun u hu => by cases hu⟩

/-- A build with other units accounts for what they do. -/
theorem IsAccounted.withUnits (ha : IsAccounted m cfg base b h) {us : List CompilationUnit}
    (hus : Accounted m cfg base us h') : IsAccounted m cfg base (b.withUnits us) h' := by
  refine ⟨?_, by rwa [units_withUnits b hus.ne_nil]⟩
  cases us with
  | nil => exact ha.config
  | cons u us => exact ha.config

/-- Collecting the files of a build is accounted for. -/
theorem discover_accounted (ha : IsAccounted m cfg base b h) (ts : Toolset) :
    Leads (b.discover m ts) h fun r h' =>
      IsAccounted m cfg base r.2.1 h' ∧ r.2.2.config = ts.config := by
  have hcfg := ha.config
  subst hcfg
  unfold discover
  refine Leads.bind (Discovery.collect_accounted (Discovery.budget b.units) [] ha.units)
    fun r h₁ hr => ?_
  exact ⟨ha.withUnits hr.1, hr.2⟩

/-- Compiling units is accounted for. -/
theorem compileUnits_accounted (done : List CompilationUnit) {us : List CompilationUnit}
    (hcfg : ts.config = cfg) (ha : Accounted m cfg base (done ++ us) h) :
    Leads (compileUnits m us ts) h fun r h' => Accounted m cfg base (done ++ r.2.1) h' := by
  induction us generalizing done ts h with
  | nil => exact ha
  | cons u rest ih =>
    have hnext : ∀ {u' ts' h₁}, ts'.config = cfg → Accounted m cfg base (done ++ u' :: rest) h₁ →
        Leads (compileUnits m rest ts') h₁ fun r h' =>
          Accounted m cfg base (done ++ u' :: r.2.1) h' := by
      intro u' ts' h₁ hcfg ha
      rw [← List.singleton_append, ← List.append_assoc] at ha
      refine (ih _ hcfg ha).mono fun r h' hr => ?_
      rwa [List.append_assoc, List.singleton_append] at hr
    unfold compileUnits
    split
    · exact Leads.bind (hnext hcfg ha) fun r h₁ hr => hr
    · refine Leads.bind ha.poll fun signal h₁ ha₁ => ?_
      cases signal with
      | some signal => exact ha₁
      | none =>
        have hcompile : Leads (ts.compile m u) h₁ fun r h' =>
            (r.2.1.config = ts.config ∧ u.Keeps r.2.2) ∧ u.Works m cfg h₁ r.2.2 h' :=
          ⟨Toolset.compile_outcome m ts u h₁, Toolset.compile_works hcfg u h₁⟩
        refine Leads.bind hcompile fun r h₂ hr => ?_
        obtain ⟨r, ts', u'⟩ := r
        obtain ⟨⟨hconfig, hkeeps⟩, hworks⟩ := hr
        have ha₂ : Accounted m cfg base (done ++ u' :: rest) h₂ :=
          ha₁.work hworks (.inr hkeeps.executable?)
        cases r with
        | error e => exact ha₂
        | ok _ => exact Leads.bind (hnext (hconfig.trans hcfg) ha₂) fun r h₃ hr => hr

/-- Compiling the sources of a build is accounted for. -/
theorem compile_accounted (hcfg : ts.config = cfg) (ha : IsAccounted m cfg base b h) :
    Leads (b.compile m ts) h fun r h' => IsAccounted m cfg base r.2.1 h' := by
  unfold compile
  refine Leads.bind (compileUnits_accounted [] hcfg ha.units) fun r h₁ hr => ?_
  exact ha.withUnits hr

/-- Linking the sources of a build is accounted for, and the executable it gives is that of its own
unit. -/
theorem link_accounted (hnone : cfg.executable = none) (hcfg : ts.config = cfg)
    (ha : IsAccounted m cfg base b h) :
    Leads (b.link m ts) h fun r h' => IsAccounted m cfg base r.2.1 h' ∧
      ∀ executable, r.1 = .ok executable → r.2.1.primary.executable? = some executable := by
  unfold link
  refine Leads.bind ha.units.poll fun signal h₁ ha₁ => ?_
  cases signal with
  | some signal => exact ⟨⟨ha.config, ha₁⟩, fun _ hr => by cases hr⟩
  | none =>
    refine Leads.bind (Toolset.link_accounted hnone hcfg ha₁) fun r h₂ hr => ?_
    obtain ⟨r, ts', us⟩ := r
    obtain ⟨hunits, -, hfirst⟩ := hr
    refine ⟨ha.withUnits hunits, fun executable hok => ?_⟩
    cases r with
    | error e => cases hok
    | ok executable' =>
      cases hok
      obtain ⟨primary, others, hus, hsome⟩ := hfirst executable rfl
      have hus : us = primary :: others := hus
      subst hus
      exact hsome

/-- Collecting, compiling and linking is accounted for. -/
theorem steps_accounted (hnone : cfg.executable = none) (hcfg : ts.config = cfg)
    (ha : IsAccounted m cfg base b h) :
    Leads (b.steps m ts) h fun r h' => IsAccounted m cfg base r.2.1 h' ∧
      ∀ executable, r.1 = .ok executable → r.2.1.primary.executable? = some executable := by
  unfold steps
  refine Leads.bind (discover_accounted ha ts) fun r h₁ hr => ?_
  obtain ⟨r, b₁, ts₁⟩ := r
  obtain ⟨ha₁, hconfig₁⟩ := hr
  cases r with
  | error f => exact ⟨ha₁, fun _ hr => by cases hr⟩
  | ok _ =>
    have hcfg₁ : ts₁.config = cfg := hconfig₁.trans hcfg
    have hcompile : Leads (b₁.compile m ts₁) h₁ fun r h' =>
        r.2.2.config = ts₁.config ∧ IsAccounted m cfg base r.2.1 h' :=
      ⟨(compile_outcome b₁ ts₁ h₁).1, compile_accounted hcfg₁ ha₁⟩
    refine Leads.bind hcompile fun r h₂ hr => ?_
    obtain ⟨r, b₂, ts₂⟩ := r
    obtain ⟨hconfig₂, ha₂⟩ := hr
    cases r with
    | error f => exact ⟨ha₂, fun _ hr => by cases hr⟩
    | ok _ => exact link_accounted hnone (hconfig₂.trans hcfg₁) ha₂

/-! ## Clearing up after a build -/

/-- Whether no unit of a build has a copy or an object. -/
def IsTidy (b : Build) : Prop := ∀ u ∈ b.units, u.copied = false ∧ u.object? = none

/-- A tidy build has left at most the executable of its own unit. -/
theorem IsAccounted.leaves_of_tidy (ha : IsAccounted m cfg base b h) (ht : b.IsTidy) :
    Leaves m cfg b.primary.executable?.toList base h := by
  refine ha.units.leaves.mono fun p hp => ?_
  obtain ⟨u, hu, hpu⟩ := List.mem_flatMap.mp hp
  obtain ⟨hcopied, hobject⟩ := ht u hu
  rcases mem_made.mp hpu with ⟨hcopied', -⟩ | hobject' | hexecutable
  · rw [hcopied] at hcopied'
    cases hcopied'
  · rw [hobject] at hobject'
    cases hobject'
  · obtain ⟨primary, others, hsplit, -, hnone⟩ := ha.units.first
    cases hsplit
    rcases List.mem_cons.mp hu with rfl | hu
    · exact Option.mem_toList.mpr hexecutable
    · rw [hnone u hu] at hexecutable
      cases hexecutable

/-- A build that clears up is tidy then, and has the executable that it had. -/
theorem cleanup_accounted (hsave : cfg.saveTemps = false) (ha : IsAccounted m cfg base b h) :
    Leads (b.cleanup m) h fun b' h' => IsAccounted m cfg base b' h' ∧ b'.IsTidy ∧
      b'.primary.executable? = b.primary.executable? := by
  have haccounted : Leads (b.cleanup m) h fun b' h' => IsAccounted m cfg base b' h' := by
    unfold cleanup
    rw [ha.config]
    exact Leads.bind (cleanUnits_accounted [] hsave ha.units) fun us h₁ hus =>
      ha.withUnits hus
  have hcleaned := cleaned_of_discarding (ha.config ▸ hsave)
  have htidy : Leads (b.cleanup m) h fun b' _ => b'.IsTidy := by
    refine (cleanup_result b h).mono fun b' h' hb' u hu => ?_
    rw [hb', units_withUnits b (by simp [units]), List.mem_map] at hu
    obtain ⟨v, -, rfl⟩ := hu
    rw [hcleaned]
    exact ⟨rfl, rfl⟩
  exact ⟨haccounted, htidy, (cleanup_outcome b h).1.executable?⟩

/-- A build that removes its executable has none then, and is tidy if it was. -/
theorem removeExecutable_accounted (hsave : cfg.saveTemps = false) (hnone : cfg.executable = none)
    (ha : IsAccounted m cfg base b h) :
    Leads (b.removeExecutable m) h fun b' h' => IsAccounted m cfg base b' h' ∧
      (b.IsTidy → b'.IsTidy) ∧ b'.primary.executable? = none := by
  have hs : b.primary.Sound m.pid := ha.units.sound _ List.mem_cons_self
  have hremove : Leads (b.primary.removeExecutable m b.config) h fun u h' =>
      u = b.primary.withoutExecutable b.config ∧ ∀ others,
        Leaves m cfg (b.primary.made ++ others) base h → Leaves m cfg (u.made ++ others) base h' :=
    ⟨b.primary.removeExecutable_result h, fun others hl => leaves_removeExecutable hs hl⟩
  unfold removeExecutable
  refine Leads.bind hremove fun u h₁ hr => ?_
  obtain ⟨hu, hleaves⟩ := hr
  have hu : u = { b.primary with executable? := none } := by
    rw [hu, withoutExecutable, ha.config, hsave, Config.buildsOnly, hnone]
    rfl
  subst hu
  refine ⟨⟨ha.config, ?_⟩, fun ht v hv => ?_, rfl⟩
  · refine Accounted.replace [] ha.units rfl (fun hs => ?_) (.inl rfl) hleaves
    exact ⟨hs.copy, hs.object, (fun p hp => by cases hp), hs.uncopied⟩
  · rcases List.mem_cons.mp hv with rfl | hv
    · exact ht b.primary List.mem_cons_self
    · exact ht v (List.mem_cons_of_mem _ hv)

/-- Building a script is accounted for. What is left is a tidy build with the executable that it
gives, if it gives one. -/
theorem build_accounted (hsave : cfg.saveTemps = false) (hnone : cfg.executable = none)
    (hcfg : ts.config = cfg) (ha : IsAccounted m cfg base b h) :
    Leads (b.build m ts) h fun r h' => IsAccounted m cfg base r.2.1 h' ∧ r.2.1.IsTidy ∧
      r.2.1.primary.executable? = r.1.toOption := by
  unfold build
  refine Leads.bind (steps_accounted hnone hcfg ha) fun r h₁ hr => ?_
  obtain ⟨r, b₁, ts₁⟩ := r
  obtain ⟨ha₁, hexecutable⟩ := hr
  refine Leads.bind (cleanup_accounted hsave ha₁) fun b₂ h₂ hr => ?_
  obtain ⟨ha₂, htidy, hkept⟩ := hr
  cases r with
  | ok executable => exact ⟨ha₂, htidy, hkept.trans (hexecutable executable rfl)⟩
  | error f =>
    refine Leads.bind (removeExecutable_accounted hsave hnone ha₂) fun b₃ h₃ hr => ?_
    exact ⟨hr.1, hr.2.1 htidy, hr.2.2⟩

/-! ## Whatever is asked of a build -/

/-- What a build can have come to, and the host with it, since it was set up on `base`: it may be
asked to collect, to compile, to link, to clear up and to build, in any order and with any toolset
for its configuration. -/
inductive Reached (m : Machine) (cfg : Config) (base : Host) : Build → Host → Prop where
  | ofPath (h₀ : Host) (script : Path) : Reached m cfg base (.ofPath m h₀ cfg script) base
  | discover {b b' : Build} {ts ts' : Toolset} {h h' : Host} {r : Except Failure Unit} :
      Reached m cfg base b h → ts.config = cfg →
        (b.discover m ts).run h = ((r, b', ts'), h') → Reached m cfg base b' h'
  | compile {b b' : Build} {ts ts' : Toolset} {h h' : Host} {r : Except Failure Unit} :
      Reached m cfg base b h → ts.config = cfg →
        (b.compile m ts).run h = ((r, b', ts'), h') → Reached m cfg base b' h'
  | link {b b' : Build} {ts ts' : Toolset} {h h' : Host} {r : Except Failure Path} :
      Reached m cfg base b h → ts.config = cfg →
        (b.link m ts).run h = ((r, b', ts'), h') → Reached m cfg base b' h'
  | cleanup {b b' : Build} {h h' : Host} :
      Reached m cfg base b h → (b.cleanup m).run h = (b', h') → Reached m cfg base b' h'
  | build {b b' : Build} {ts ts' : Toolset} {h h' : Host} {r : Except Failure Path} :
      Reached m cfg base b h → ts.config = cfg →
        (b.build m ts).run h = ((r, b', ts'), h') → Reached m cfg base b' h'

/-- A build accounts for what has come since it was set up. -/
theorem Reached.accounted (hsave : cfg.saveTemps = false) (hnone : cfg.executable = none)
    (hr : Reached m cfg base b h) : IsAccounted m cfg base b h := by
  induction hr with
  | ofPath h₀ script => exact isAccounted_ofPath m h₀ cfg script (.refl base)
  | discover _ _ hrun ih => exact ((leads_of_run hrun _).mp (discover_accounted ih _)).1
  | compile _ hcfg hrun ih => exact (leads_of_run hrun _).mp (compile_accounted hcfg ih)
  | link _ hcfg hrun ih => exact ((leads_of_run hrun _).mp (link_accounted hnone hcfg ih)).1
  | cleanup _ hrun ih => exact ((leads_of_run hrun _).mp (cleanup_accounted hsave ih)).1
  | build _ hcfg hrun ih => exact ((leads_of_run hrun _).mp (build_accounted hsave hnone hcfg ih)).1

/-! ## Starting the program -/

/-- Starting the program of a build that has been linked leaves the build as it is, and spares its
executable. -/
theorem launch_spares (args : List String) {executable : Path} (ha : IsAccounted m cfg base b h)
    (hsome : b.primary.executable? = some executable) :
    Leads (b.launch m (.ofDebugger cfg.debugger) cfg args) h fun r h' =>
      r.2 = b ∧ Relates m cfg (Files.Spares m.cwd (executable :: cfg.kept)) h h' := by
  obtain ⟨primary, others, hsplit, hkind, -⟩ := ha.units.first
  have hkind : b.primary.kind = .source := by
    cases hsplit
    exact hkind
  have hlaunch : Leads (Launcher.launch m cfg (.ofDebugger cfg.debugger) b.primary args) h
      fun r h' => r.2 = b.primary ∧
        Relates m cfg (Files.Spares m.cwd (executable :: cfg.kept)) h h' := by
    unfold Launcher.launch
    rw [executable_of_some hkind hsome, pure_bind]
    dsimp only
    cases hc : (Launcher.ofDebugger cfg.debugger).command? executable args with
    | some c =>
      have hrun : Leads (Host.run m c) h fun _ h' =>
          Relates m cfg (Files.Spares m.cwd (executable :: cfg.kept)) h h' :=
        relates_run (fun fs => (Files.Adds.refl m.cwd [] fs).spares _)
          (fun hm => hm.launching executable args hc) h
      refine Leads.bind hrun fun ended h₁ hr => ?_
      cases ended with
      | error cause => exact ⟨rfl, hr⟩
      | ok status => exact ⟨rfl, hr.still (.single rfl trivial) rfl⟩
    | none =>
      have hrun : Leads (Host.runAs m executable (b.primary.path.text :: args)) h fun _ h' =>
          Relates m cfg (Files.Spares m.cwd (executable :: cfg.kept)) h h' :=
        relates_runAs executable _ h
      refine Leads.bind hrun fun ended h₁ hr => ?_
      cases ended with
      | error cause => exact ⟨rfl, hr⟩
      | ok status => exact ⟨rfl, hr.still (.single rfl trivial) rfl⟩
  unfold launch
  refine Leads.bind hlaunch fun r h₁ hr => ?_
  obtain ⟨result, u⟩ := r
  obtain ⟨hu, hspares⟩ := hr
  have hu : u = b.primary := hu
  subst hu
  exact ⟨rfl, hspares⟩

end Build

end CxxScript

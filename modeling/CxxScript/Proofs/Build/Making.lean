import CxxScript.Build.Steps
import CxxScript.Proofs.Build.Faults
import CxxScript.Proofs.Build.Leaving

/-!
# What a unit has made

The files that come while a script is collected, compiled and linked are known to its units: the
copy, the object and the executable, `CompilationUnit.made`. Each of their names carries the token
of the run, as long as the unit is `Sound`. `Works` says of a stretch of work on a unit that the
unit forgets nothing that it has made, and that nothing else is left but what is meant to stay; so
it is when the unit is asked for its object, `object_works`, or for its executable,
`executable_works`, and when it is scanned, `scan_works`.
-/

set_option autoImplicit false

namespace CxxScript

open Host

variable {m : Machine} {cfg : Config}

namespace CompilationUnit

/-! ## Names that carry the token -/

/-- Whether a path ends in a temporary name. -/
def Carries (pid : Nat) (p : Path) : Prop := ∃ name, p.EndsIn name ∧ IsTemporary pid name

/-- A path whose last name goes on with the token ends in that name. -/
theorem endsIn_append_token (t : String) (pid : Nat) {tail : String} (htail : '/' ∉ tail.toList) :
    (⟨t ++ (token pid ++ tail)⟩ : Path).EndsIn
      (String.ofList (Path.lastOf t.toList) ++ token pid ++ tail) := by
  have hname : Path.IsName (Path.lastOf t.toList ++ ((token pid).toList ++ tail.toList)) :=
    isName_append_token (Path.not_mem_lastOf t.toList) pid htail
  refine ⟨Path.leadOf t.toList, ?_, Path.isLead_leadOf _, ?_⟩
  · simp only [String.toList_append, String.toList_ofList, List.append_assoc]
    rw [← List.append_assoc (Path.leadOf t.toList), Path.leadOf_append_lastOf]
  · simp only [String.toList_append, String.toList_ofList, List.append_assoc]
    exact hname

/-- Such a name is a temporary one. -/
theorem carries_append_token (t : String) (pid : Nat) {tail : String} (htail : '/' ∉ tail.toList) :
    Carries pid ⟨t ++ (token pid ++ tail)⟩ :=
  ⟨_, endsIn_append_token t pid htail, .inl ⟨_, _, rfl⟩⟩

/-- What is derived from a unit is told from other files by its name: that of the copy ends in the
token and an extension, the others carry the token. There is no copy before the unit is scanned. -/
structure Sound (pid : Nat) (u : CompilationUnit) : Prop where
  copy : ∃ t e, '.' ∉ e.toList ∧ '/' ∉ e.toList ∧ u.copy = ⟨t ++ ending pid e⟩
  object : ∀ p, u.object? = some p → Carries pid p
  executable : ∀ p, u.executable? = some p → Carries pid p
  uncopied : u.scanned = false → u.copied = false

/-- The copy of a unit carries the token. -/
theorem Sound.carries_copy {pid : Nat} {u : CompilationUnit} (h : u.Sound pid) :
    Carries pid u.copy := by
  obtain ⟨t, e, -, hslash, hcopy⟩ := h.copy
  rw [hcopy, ending]
  refine carries_append_token t pid ?_
  rw [String.toList_append, List.mem_append, not_or]
  exact ⟨by decide, hslash⟩

/-- What is derived from the copy of a unit carries the token at any site. -/
theorem Sound.carries_site {u : CompilationUnit} (h : u.Sound m.pid) (s : Site) {f : String}
    (hf : '/' ∉ f.toList) : Carries m.pid (s.path m cfg.cacheRoot (u.copy.withExtension f)) := by
  obtain ⟨t, e, hdot, hslash, hcopy⟩ := h.copy
  have htail : '/' ∉ (if f.isEmpty then "" else "." ++ f).toList := by
    split
    · decide
    · rw [String.toList_append, List.mem_append, not_or]
      exact ⟨by decide, hf⟩
  have hname : Path.IsName (Path.lastOf t.toList ++
      (token m.pid ++ if f.isEmpty then "" else "." ++ f).toList) := by
    rw [String.toList_append]
    exact isName_append_token (Path.not_mem_lastOf t.toList) m.pid htail
  rw [hcopy, withExtension_ending t m.pid hdot hslash, Site.path_append m cfg.cacheRoot s hname]
  exact carries_append_token _ m.pid htail

/-- The copy of a unit keeps its ending at any site. -/
theorem Sound.copy_site {u : CompilationUnit} (h : u.Sound m.pid) (s : Site) :
    ∃ t e, '.' ∉ e.toList ∧ '/' ∉ e.toList ∧
      s.path m cfg.cacheRoot u.copy = ⟨t ++ ending m.pid e⟩ := by
  obtain ⟨t, e, hdot, hslash, hcopy⟩ := h.copy
  refine ⟨s.trunk m cfg.cacheRoot t, e, hdot, hslash, ?_⟩
  rw [hcopy, Site.path_ending m cfg.cacheRoot s t m.pid hslash]

/-- A unit that has just been made is sound. -/
theorem sound_ofPath (m : Machine) (h : Host) (kind : UnitKind) (p : Path) :
    (ofPath m h kind p).Sound m.pid := by
  refine ⟨⟨trunk p.normalize, copyExtension p.normalize, (not_mem_copyExtension _).1,
    (not_mem_copyExtension _).2, copyPath_normalize m.pid p⟩, fun q hq => ?_, fun q hq => ?_,
    fun _ => rfl⟩
  · cases hq
  · cases hq

/-! ## What a unit has made -/

/-- The files that a unit knows to have been made for it. -/
def made (u : CompilationUnit) : List Path :=
  (if u.copied then [u.copy] else []) ++ u.object?.toList ++ u.executable?.toList

/-- What a unit knows to have been made for it is its copy, its object or its executable. -/
theorem mem_made {u : CompilationUnit} {p : Path} : p ∈ u.made ↔
    (u.copied = true ∧ p = u.copy) ∨ u.object? = some p ∨ u.executable? = some p := by
  rw [made, List.mem_append, List.mem_append, Option.mem_toList, Option.mem_toList, or_assoc]
  refine or_congr ?_ .rfl
  split
  · next hcopied => simp [hcopied]
  · next hcopied => simp [hcopied]

/-- All that has been made for some units. -/
def allMade (us : List CompilationUnit) : List Path := us.flatMap made

/-- What a unit has made has been made for the units it is among. -/
theorem made_subset_allMade {u : CompilationUnit} {us : List CompilationUnit} (hu : u ∈ us) :
    u.made ⊆ allMade us := fun _ hp => List.mem_flatMap_of_mem hu hp

/-- The unit `u'` goes on from `u`: it is of the same kind, knows all that has been made for `u`,
and is sound if `u` is. -/
structure GoesOn (pid : Nat) (u u' : CompilationUnit) : Prop where
  kind : u'.kind = u.kind
  made : u.made ⊆ u'.made
  sound : u.Sound pid → u'.Sound pid

/-- A unit goes on from itself. -/
theorem GoesOn.refl (pid : Nat) (u : CompilationUnit) : u.GoesOn pid u :=
  ⟨rfl, List.Subset.refl _, id⟩

/-- What goes on from a unit that goes on from another goes on from that one. -/
theorem GoesOn.trans {pid : Nat} {a b c : CompilationUnit} (h : a.GoesOn pid b)
    (h' : b.GoesOn pid c) : a.GoesOn pid c :=
  ⟨h'.kind.trans h.kind, List.Subset.trans h.made h'.made, fun hs => h'.sound (h.sound hs)⟩

/-- A unit with other flags goes on from the one without. -/
theorem Flagged.goesOn {u u' : CompilationUnit} (h : u.Flagged u') (pid : Nat) :
    u.GoesOn pid u' := by
  unfold Flagged at h
  rw [h]
  exact ⟨rfl, List.Subset.refl _, fun hs => ⟨hs.copy, hs.object, hs.executable, hs.uncopied⟩⟩

/-- The unit goes on, and between the hosts nothing is left but what it has made and what is meant
to stay. -/
def Works (m : Machine) (cfg : Config) (u : CompilationUnit) (h : Host) (u' : CompilationUnit)
    (h' : Host) : Prop := u.GoesOn m.pid u' ∧ Leaves m cfg u'.made h h'

/-- Work on a unit and further work on it is work on it. -/
theorem Works.trans {a b c : CompilationUnit} {h h' h'' : Host} (hab : a.Works m cfg h b h')
    (hbc : b.Works m cfg h' c h'') : a.Works m cfg h c h'' :=
  ⟨hab.1.trans hbc.1, (hab.2.mono hbc.1.made).trans hbc.2⟩

/-- Nothing has been made but what the unit knew before. -/
theorem Works.of_leaves {u : CompilationUnit} {h h' : Host} (hl : Leaves m cfg u.made h h') :
    u.Works m cfg h u h' := ⟨.refl _ u, hl⟩

/-! ## Looking for a place -/

/-- Work on a unit that begins with the search for a place, which it then knows. -/
theorem find_works (u : CompilationUnit) {p : Path} (known : Placement → CompilationUnit)
    (hmade : ∀ s : Site, s.path m cfg.cacheRoot p ∈
      (known (s.placement m cfg.cacheRoot p)).made)
    (hgoes : ∀ s : Site, u.GoesOn m.pid (known (s.placement m cfg.cacheRoot p))) (h : Host) :
    Leads (Placement.find m cfg.cacheRoot p) h fun r h' =>
      (∀ cause, r = .error cause → u.Works m cfg h u h') ∧
        ∀ place, r = .ok place → u.Works m cfg h (known place) h' ∧
          place.path ∈ (known place).made := by
  have hfind : Leads (Placement.find m cfg.cacheRoot p) h fun r h' =>
      (∀ place, r = .ok place → ∃ s : Site, place = s.placement m cfg.cacheRoot p) ∧
        ∀ made, (∀ place, r = .ok place → place.path ∈ made) → Leaves m cfg made h h' :=
    ⟨Placement.find_site m cfg.cacheRoot p h, Placement.leaves_find p h⟩
  refine hfind.mono fun r h' ⟨hsite, hleaves⟩ => ⟨?_, ?_⟩
  · rintro cause rfl
    exact .of_leaves (hleaves _ fun place hp => by cases hp)
  · rintro place rfl
    obtain ⟨s, rfl⟩ := hsite place rfl
    refine ⟨⟨hgoes s, hleaves _ ?_⟩, hmade s⟩
    rintro place ⟨⟩
    exact hmade s

/-- A unit that is asked for a derived file, for which none was asked at a path, knows it from then
on. -/
theorem Yields.works {u : CompilationUnit} {known : Option Path} {extension : String}
    {having : Path → CompilationUnit} {h h' : Host} {r : Except UnitError Path × CompilationUnit}
    (hy : u.Yields m cfg known none extension having h r h')
    (hknown : ∀ p, known = some p → p ∈ u.made) (hmade : ∀ p, p ∈ (having p).made)
    (hgoes : known = none → ∀ s : Site,
      u.GoesOn m.pid (having (s.path m cfg.cacheRoot (u.copy.withExtension extension)))) :
    u.Works m cfg h r.2 h' ∧ ∀ p, r.1 = .ok p → p ∈ r.2.made := by
  have hfind := fun hnone => find_works u (fun place => having place.path) (fun s => hmade _)
    (fun s => hgoes hnone s) h
  cases hy with
  | header => exact ⟨.of_leaves (.refl h), fun p hp => by cases hp⟩
  | known _ hp => exact ⟨.of_leaves (.refl h), by rintro p ⟨⟩; exact hknown _ hp⟩
  | asked _ _ hasked => cases hasked
  | missing _ hnone _ hmissing =>
    exact ⟨((leads_of_run hmissing _).mp (hfind hnone)).1 _ rfl, fun p hp => by cases hp⟩
  | found _ hnone _ hfound =>
    exact ⟨(((leads_of_run hfound _).mp (hfind hnone)).2 _ rfl).1, by rintro p ⟨⟩; exact hmade _⟩

/-- A unit that is asked for its object knows it from then on. -/
theorem object_works (u : CompilationUnit) (h : Host) :
    Leads (u.object m cfg) h fun r h' => u.Works m cfg h r.2 h' ∧
      r.2.executable? = u.executable? ∧ ∀ p, r.1 = .ok p → p ∈ r.2.made := by
  refine (object_yields m cfg u h).mono fun r h' hyields => ?_
  have hexecutable : r.2.executable? = u.executable? := by cases hyields <;> rfl
  have hgoes : u.object? = none → ∀ s : Site, u.GoesOn m.pid
      { u with object? := some (s.path m cfg.cacheRoot (u.copy.withExtension "o")) } := by
    refine fun hnone s => ⟨rfl, fun p hp => ?_, fun hs =>
      ⟨hs.copy, ?_, hs.executable, hs.uncopied⟩⟩
    · rcases mem_made.mp hp with hcopy | hold | hexecutable
      · exact mem_made.mpr (.inl hcopy)
      · rw [hnone] at hold
        cases hold
      · exact mem_made.mpr (.inr (.inr hexecutable))
    · rintro p ⟨⟩
      exact hs.carries_site s (by decide)
  obtain ⟨hworks, hmade⟩ := hyields.works (fun p hp => mem_made.mpr (.inr (.inl hp)))
    (fun p => mem_made.mpr (.inr (.inl rfl))) hgoes
  exact ⟨hworks, hexecutable, hmade⟩

/-- A unit that is asked for its executable knows it from then on, where none was asked for. -/
theorem executable_works (hnone : cfg.executable = none) (u : CompilationUnit) (h : Host) :
    Leads (u.executable m cfg) h fun r h' => u.Works m cfg h r.2 h' ∧
      ∀ p, r.1 = .ok p → r.2.executable? = some p := by
  refine (executable_yields m cfg u h).mono fun r h' hyields => ?_
  rw [hnone] at hyields
  have hhas : ∀ p, r.1 = .ok p → r.2.executable? = some p := by
    cases hyields with
    | header => exact fun p hp => by cases hp
    | known _ hknown => rintro p ⟨⟩; exact hknown
    | asked => exact fun p hp => congrArg some (Except.ok.inj hp)
    | missing => exact fun p hp => by cases hp
    | found => exact fun p hp => congrArg some (Except.ok.inj hp)
  have hgoes : u.executable? = none → ∀ s : Site, u.GoesOn m.pid
      { u with executable? := some (s.path m cfg.cacheRoot (u.copy.withExtension "")) } := by
    refine fun hfirst s => ⟨rfl, fun p hp => ?_, fun hs =>
      ⟨hs.copy, hs.object, ?_, hs.uncopied⟩⟩
    · rcases mem_made.mp hp with hcopy | hobject | hold
      · exact mem_made.mpr (.inl hcopy)
      · exact mem_made.mpr (.inr (.inl hobject))
      · rw [hfirst] at hold
        cases hold
    · rintro p ⟨⟩
      exact hs.carries_site s (by decide)
  have hworks := hyields.works (fun p hp => mem_made.mpr (.inr (.inr hp)))
    (fun p => mem_made.mpr (.inr (.inr rfl))) hgoes
  exact ⟨hworks.1, hhas⟩

/-! ## Scanning -/

/-- The copy of a unit stands where it has found a place. -/
theorem copy_withCopyAt (u : CompilationUnit) (s : Site) :
    (u.withCopyAt (s.placement m cfg.cacheRoot u.copy)).copy = s.path m cfg.cacheRoot u.copy := by
  cases s <;> rfl

/-- A scanned unit without a copy goes on as one with a copy. -/
theorem goesOn_withCopyAt {u : CompilationUnit} (hscanned : u.scanned = true)
    (hfirst : u.copied = false) (s : Site) :
    u.GoesOn m.pid (u.withCopyAt (s.placement m cfg.cacheRoot u.copy)) := by
  have hcopies : u.Copies m cfg (u.withCopyAt (s.placement m cfg.cacheRoot u.copy)) :=
    copies_withCopyAt u s
  obtain ⟨hfollows, hstill, -⟩ := hcopies
  refine ⟨hfollows.kind, fun p hp => ?_, fun hs => ⟨?_, ?_, ?_, fun hnot => ?_⟩⟩
  · rcases mem_made.mp hp with ⟨hcopied, -⟩ | hobject | hexecutable
    · rw [hfirst] at hcopied
      cases hcopied
    · exact mem_made.mpr (.inr (.inl (hfollows.object?.trans hobject)))
    · exact mem_made.mpr (.inr (.inr (hfollows.executable?.trans hexecutable)))
  · rw [copy_withCopyAt]
    exact hs.copy_site s
  · rw [hfollows.object?]
    exact hs.object
  · rw [hfollows.executable?]
    exact hs.executable
  · rw [hstill, hscanned] at hnot
    cases hnot

/-- A scanned unit without a copy knows its copy from the moment a place has been found. -/
theorem openCopy_works {u : CompilationUnit} (hscanned : u.scanned = true)
    (hfirst : u.copied = false) (h : Host) :
    Leads (u.openCopy m cfg) h fun r h' => u.Works m cfg h r.2 h' := by
  unfold openCopy
  split
  · exact .of_leaves (.refl h)
  · refine Leads.bind (find_works u u.withCopyAt ?mem
      (fun s => goesOn_withCopyAt hscanned hfirst s) h) fun r h₁ hr => ?_
    case mem =>
      exact fun s => mem_made.mpr (.inl ⟨copied_withCopyAt u _, (copy_withCopyAt u s).symm⟩)
    cases r with
    | error cause => exact hr.1 cause rfl
    | ok place =>
      have hmem : (u.withCopyAt place).copy ∈ (u.withCopyAt place).made :=
        mem_made.mpr (.inl ⟨copied_withCopyAt u place, rfl⟩)
      have hcreate : Leads (create m (u.withCopyAt place).copy) h₁ fun _ h₂ =>
          Leaves m cfg (u.withCopyAt place).made h₁ h₂ :=
        leaves_create (List.mem_append_left cfg.kept hmem) h₁
      exact Leads.bind hcreate fun _ h₂ hl => (hr.2 place rfl).1.trans (.of_leaves hl)

end CompilationUnit

/-- Asking for packages leaves nothing. -/
theorem Package.leaves_flagsFor {made : List Path} (requirement : String) (h : Host) :
    Leads (flagsFor m cfg.pkgConfig requirement) h fun _ h' => Leaves m cfg made h h' := by
  have hquery : ∀ c, IsQuestion cfg.pkgConfig c → ∀ h,
      Leads (query m c) h fun _ h' => Leaves m cfg made h h' := by
    intro c hc h
    unfold query
    refine Leaves.bind (leaves_capture (fun hm => hm.adds (.inr hc) _) h) fun r h' => ?_
    split <;> exact .refl h'
  unfold flagsFor
  split
  · exact .refl h
  · next base hbase =>
    have hexists : IsQuestion cfg.pkgConfig (base.withArgs (existsArgs requirement)) :=
      ⟨base, requirement, hbase, .inl rfl⟩
    have hflags : IsQuestion cfg.pkgConfig (base.withArgs (flagsArgs requirement)) :=
      ⟨base, requirement, hbase, .inr rfl⟩
    refine Leaves.bind (hquery _ hexists h) fun r h₁ => ?_
    split
    · exact .refl h₁
    · split
      · exact .refl h₁
      · refine Leaves.bind (hquery _ hflags h₁) fun r h₂ => ?_
        split
        · exact .refl h₂
        · split <;> exact .refl h₂

/-- Reading a file for directives leaves nothing. -/
theorem leavingFrame (m : Machine) (cfg : Config) (made : List Path) :
    Scan.Frame m cfg (Leaves m cfg made) where
  refl := .refl
  trans := .trans
  emit _ _ _ := .of_files (.single rfl trivial) rfl
  poll _ := .of_files (.of_eq rfl) rfl
  query := Package.leaves_flagsFor

/-- Writing the copy of a scanned unit without one leaves the copy. -/
theorem Scan.writeCopy_works (content : Bytes) {u : CompilationUnit} (hscanned : u.scanned = true)
    (hfirst : u.copied = false) (h : Host) :
    Leads (writeCopy m cfg content u) h fun r h' => u.Works m cfg h r.2 h' := by
  unfold writeCopy
  split
  · exact .of_leaves (.refl h)
  · refine Leads.bind (CompilationUnit.openCopy_works hscanned hfirst h) fun r h₁ hw => ?_
    obtain ⟨r, u'⟩ := r
    cases r with
    | error cause => exact hw
    | ok at_ =>
      have hrest : Leads (do
          note (.copying u'.path u'.copy)
          Host.append at_ (Source.copyOf u'.path content)) h₁ fun _ h₂ =>
            Leaves m cfg u'.made h₁ h₂ :=
        Leaves.bind (leaves_note _ h₁) fun _ h₂ => leaves_append at_ _ h₂
      exact hw.trans (.of_leaves hrest)

namespace CompilationUnit

/-- A unit that is scanned has the same executable as before, and what it refers to has only just
been made. -/
theorem scan_drafts (u : CompilationUnit) (h : Host) :
    Leads (u.scan m cfg) h fun r _ => r.2.executable? = u.executable? ∧
      ∀ found, r.1 = .ok found → ∀ f ∈ found, f.Sound m.pid ∧ f.made = [] := by
  have hframe := Discovery.trivialFrame m cfg
  refine (scan_outcome hframe.toFrame hframe u h).mono fun r h' hscanned => ?_
  refine ⟨hscanned.follows.executable?, fun found hfound f hf => ?_⟩
  obtain ⟨h₀, kind, p, -, rfl⟩ := hscanned.made found hfound f hf
  exact ⟨sound_ofPath m h₀ kind p, rfl⟩

/-- Scanning a unit that has no copy leaves nothing but the copy. -/
theorem scan_works {u : CompilationUnit} (hfirst : u.copied = false) (h : Host) :
    Leads (u.scan m cfg) h fun r h' => u.Works m cfg h r.2 h' := by
  have hbegun : Leaves m cfg u.made h (h.noted (.scanning u.path)) :=
    .of_files (.single rfl trivial) rfl
  have F := leavingFrame m cfg u.made
  unfold scan
  rw [leads_bind, leads_note, leads_bind, leads_get]
  split
  · exact .of_leaves hbegun
  · next content _ =>
    refine Leads.bind (Scan.readLines_extends F 0 (Source.rawLines content) { unit := u }
      (h.noted (.scanning u.path))) fun r h₁ hextends => ?_
    obtain ⟨signal?, s⟩ := r
    have hflagged : u.Flagged s.unit := hextends.unit
    have hread : u.Works m cfg h s.unit h₁ :=
      ⟨hflagged.goesOn m.pid, (hbegun.trans hextends.host).mono (hflagged.goesOn m.pid).made⟩
    have hreport : ∀ h₁, Leads (report s.diagnostics) h₁ fun _ h₂ =>
        Leaves m cfg s.unit.made h₁ h₂ :=
      report_frame (leavingFrame m cfg s.unit.made) s.diagnostics
    cases signal? with
    | some signal =>
      exact (hreport h₁).mono fun _ h₂ hl => hread.trans (.of_leaves hl)
    | none =>
      have hmarked : ∀ {h₂}, Leaves m cfg s.unit.made h₁ h₂ →
          u.Works m cfg h { s.unit with scanned := true } h₂ := by
        intro h₂ hl
        refine hread.trans ⟨⟨rfl, List.Subset.refl _, fun hs => ?_⟩, hl⟩
        exact ⟨hs.copy, hs.object, hs.executable, fun hnot => by cases hnot⟩
      have huncopied : s.unit.copied = false := by
        unfold Flagged at hflagged
        rw [hflagged]
        exact hfirst
      refine Leads.bind (hreport h₁) fun _ h₂ hl => ?_
      dsimp only
      split
      · exact hmarked hl
      · refine Leads.bind (Scan.writeCopy_works content (u := { s.unit with scanned := true }) rfl
          huncopied h₂) fun r h₃ hw => ?_
        obtain ⟨r, u'⟩ := r
        have hdone := (hmarked hl).trans hw
        cases r with
        | error e => exact hdone
        | ok _ => exact hdone

end CompilationUnit

end CxxScript

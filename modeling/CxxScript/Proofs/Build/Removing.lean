import CxxScript.Proofs.Build.Clearing
import CxxScript.Proofs.Build.Effects
import CxxScript.Proofs.Build.Lasting
import CxxScript.Proofs.Host.Confining
import CxxScript.Proofs.Host.Resolution

/-!
# What a unit may remove

The names of all places that are found for what is derived from a unit carry the token of the run,
and nothing else is opened, written or removed for it. So as long as no link carries the token,
whatever is asked of a unit happens under such names alone, `operations_confined`, and what is
removed is what has been found before.
-/

set_option autoImplicit false

namespace CxxScript

open Host

variable {m : Machine} {cfg : Config}

/-! ## Looking for a place -/

namespace Placement

/-- Looking for a place under marked names. -/
theorem confines_find {mark : String} {root p : Path}
    (hp : ∀ s : Site, (s.path m root p).Bears mark) (h : Host) :
    Leads (find m root p) h fun _ h' => Confines mark h h' := by
  obtain ⟨seen, hseen⟩ := mirrored_site m root p h
  have hmirrored : (mirrored m root p h).Bears mark := hseen ▸ hp (.below seen)
  have hgrows := Files.grows_withDirectory h.files m.cwd (mirrored m root p h)
  have hdirectory : h.files.Confined mark
      (h.files.withDirectory m.cwd (mirrored m root p h)) := by
    unfold Files.withDirectory
    split
    · exact Files.confined_makeDirectories _ _ _ _
    · exact .refl _ _
  refine (find_settles m root p h).mono fun r h' hsettles => ?_
  cases hsettles with
  | beside ho =>
    exact ⟨Files.grows_openAppend ho,
      fun hlinks => Files.confined_openAppend (hp .beside) hlinks ho⟩
  | below _ ho =>
    refine ⟨hgrows.trans (Files.grows_openAppend ho), fun hlinks => ?_⟩
    exact hdirectory.trans (Files.confined_openAppend hmirrored (hdirectory.noLinks hlinks) ho)
  | nowhere => exact ⟨hgrows, fun _ => hdirectory⟩

end Placement

namespace CompilationUnit

variable {u : CompilationUnit} {ds : List Deed} {h : Host}

/-- What is named after a file bears the token. -/
theorem NamedAfter.bears {pid : Nat} {file p : Path} {art : Artifact}
    (hn : NamedAfter pid file art p) : p.Bears (token pid) := ⟨_, _, hn.endsIn⟩

/-- Looking for a place for what is derived from a unit. -/
theorem Named.confines_find (hn : u.Named m.pid) (art : Artifact) (h : Host) :
    Leads (Placement.find m cfg.cacheRoot (art.natural u.copy)) h fun _ h' =>
      Confines (token m.pid) h h' :=
  Placement.confines_find
    (fun s => ((NamedAfter.natural hn art).site m cfg.cacheRoot s).bears) h

/-! ## Writing the copy -/

/-- Opening the copy of a unit. -/
theorem openCopy_confines (hn : u.Named m.pid) (h : Host) :
    Leads (u.openCopy m cfg) h fun r h' => Confines (token m.pid) h h' ∧
      (h.files.NoLinks (token m.pid) → ∀ at_, r.1 = .ok at_ →
        Location.Bears (token m.pid) at_) := by
  unfold openCopy
  split
  · exact ⟨.of_files rfl, fun _ at_ hr => by cases hr⟩
  · have hfind : Leads (Placement.find m cfg.cacheRoot u.copy) h fun r h' =>
        (∀ place, r = .ok place → ∃ s : Site, place = s.placement m cfg.cacheRoot u.copy) ∧
          Confines (token m.pid) h h' :=
      ⟨Placement.find_site m cfg.cacheRoot u.copy h, hn.confines_find .copy h⟩
    refine Leads.bind hfind fun r h₁ ⟨hsite, hc⟩ => ?_
    cases r with
    | error cause => exact ⟨hc, fun _ at_ hr => by cases hr⟩
    | ok place =>
      obtain ⟨s, rfl⟩ := hsite place rfl
      have hbears : (u.withCopyAt (s.placement m cfg.cacheRoot u.copy)).copy.Bears
          (token m.pid) := by
        rw [copy_withCopyAt]
        exact (NamedAfter.site hn m cfg.cacheRoot s).bears
      refine Leads.bind (confines_create hbears h₁) fun r h₂ ⟨hc', hat⟩ => ?_
      refine ⟨hc.trans hc', fun hlinks at_ hr => ?_⟩
      cases r with
      | error cause => cases hr
      | ok loc =>
        cases hr
        exact hat ((hc.2 hlinks).noLinks hlinks) _ rfl

/-- Adding bytes to the copy that has been opened. -/
theorem append_confines {h h₁ : Host} {at_ : Location} {mark : String} (hc : Confines mark h h₁)
    (hat : h.files.NoLinks mark → Location.Bears mark at_) (bytes : Bytes) :
    Leads (Host.append at_ bytes) h₁ fun _ h₂ => Confines mark h h₂ :=
  (confines_append at_ bytes h₁).mono fun _ _ ⟨hgrows, happend⟩ =>
    ⟨hc.1.trans hgrows, fun hlinks => (hc.2 hlinks).trans (happend (hat hlinks))⟩

/-- Writing the copy of a unit. -/
theorem writeCopy_confines (hn : u.Named m.pid) (content : Bytes) (h : Host) :
    Leads (u.writeCopy m cfg content) h fun _ h' => Confines (token m.pid) h h' := by
  unfold writeCopy
  refine Leads.bind (openCopy_confines hn h) fun r h₁ ⟨hc, hat⟩ => ?_
  obtain ⟨r, u'⟩ := r
  cases r with
  | error cause => exact hc
  | ok at_ =>
    exact Leads.bind (append_confines hc (fun hlinks => hat hlinks at_ rfl) content)
      fun _ _ hc' => hc'

/-- Writing the copy that a scan asks for. -/
theorem scanWriteCopy_confines (hn : u.Named m.pid) (content : Bytes) (h : Host) :
    Leads (Scan.writeCopy m cfg content u) h fun _ h' => Confines (token m.pid) h h' := by
  unfold Scan.writeCopy
  split
  · exact .of_files rfl
  · refine Leads.bind (openCopy_confines hn h) fun r h₁ ⟨hc, hat⟩ => ?_
    obtain ⟨r, u'⟩ := r
    cases r with
    | error cause => exact hc
    | ok at_ =>
      have hnoted : Confines (token m.pid) h (h₁.noted (.copying u'.path u'.copy)) :=
        hc.trans (.of_files rfl)
      dsimp only
      rw [leads_bind, leads_note]
      exact Leads.bind (append_confines hnoted (fun hlinks => hat hlinks at_ rfl) _)
        fun _ _ hc' => hc'

/-- Scanning a unit: packages are asked for, and then the copy is written, if at all. -/
theorem scan_confines (hn : u.Named m.pid) (h : Host) :
    Leads (u.scan m cfg) h fun _ h' => ∃ h₁ : Host,
      Package.Asked m cfg.pkgConfig h.files h₁.files ∧ Confines (token m.pid) h₁ h' := by
  refine (scan_ends u h).mono fun r h' hends => ?_
  cases hends with
  | read hasked => exact ⟨h', hasked, .of_files rfl⟩
  | @written content s h₁ _ _ _ hr _ _ hw =>
    have hn' : ({ s.unit with scanned := true } : CompilationUnit).Named m.pid := by
      rw [Named, hr.flagged.follows.path, hr.flagged.copy]
      exact hn
    exact ⟨h₁, hr.asked, (leads_of_run hw _).mp (scanWriteCopy_confines hn' content h₁)⟩

/-- Asking a unit for a derived file. -/
theorem Yields.confines {known asked : Option Path} {extension : String}
    {having : Path → CompilationUnit} {h' : Host} {r : Except UnitError Path × CompilationUnit}
    (hy : u.Yields m cfg known asked extension having h r h') (hn : u.Named m.pid) (art : Artifact)
    (hplace : art.natural u.copy = u.copy.withExtension extension) :
    Confines (token m.pid) h h' := by
  have hfind := @Named.confines_find m cfg u hn art h
  rw [hplace] at hfind
  cases hy with
  | header => exact .of_files rfl
  | known => exact .of_files rfl
  | asked => exact .of_files rfl
  | missing _ _ _ hmissing => exact (leads_of_run hmissing _).mp hfind
  | found _ _ _ hfound => exact (leads_of_run hfound _).mp hfind

/-! ## Removing -/

/-- What an operation on a unit is to remove. -/
def removals (cfg : Config) (u : CompilationUnit) : Op → List Path
  | .cleanup => if cfg.saveTemps then [] else u.intermediates
  | .removeExecutable =>
    if cfg.saveTemps || cfg.buildsOnly then [] else u.executable?.toList
  | _ => []

/-- To remove the copy and the object of a unit is to remove what is to be removed, one file after
the other. -/
theorem run_cleanup_eq (u : CompilationUnit) (h : Host) :
    (u.cleanup m cfg).run h =
      (u.cleaned cfg, (((u.removals cfg .cleanup).forM (removeFile m)).run h).2) := by
  obtain ⟨path, identity, kind, copy, copied, object?, executable?, flags, privateFlags,
    scanned⟩ := u
  unfold cleanup cleaned removals intermediates
  cases cfg.saveTemps with
  | true => rfl
  | false =>
    generalize removeFile m = remove
    cases copied <;> cases object? <;> rfl

/-- To remove the executable of a unit is to remove what is to be removed. -/
theorem run_removeExecutable_eq (u : CompilationUnit) (h : Host) :
    (u.removeExecutable m cfg).run h =
      (u.withoutExecutable cfg,
        (((u.removals cfg .removeExecutable).forM (removeFile m)).run h).2) := by
  obtain ⟨path, identity, kind, copy, copied, object?, executable?, flags, privateFlags,
    scanned⟩ := u
  unfold removeExecutable withoutExecutable removals
  cases cfg.saveTemps || cfg.buildsOnly with
  | true => rfl
  | false =>
    generalize removeFile m = remove
    cases executable? <;> rfl

end CompilationUnit

/-- A path leads to a location, where a link at its end is not followed. -/
def Files.LeadsTo (fs : Files) (wd : WorkingDir) (p : Path) (at_ : Location) : Prop :=
  ∃ e, fs.locate wd .linkItself p = .ok (.present at_ e)

/-- Some files are taken away, as far as that can be done. The files have shrunk, nothing has
happened but under marked names if no link had one, and one of the paths led to what is gone. -/
structure Takes (m : Machine) (mark : String) (ps : List Path) (h h' : Host) : Prop where
  shrunk : h'.files.Grows h.files
  confined : h.files.NoLinks mark → h.files.Confined mark h'.files
  gone : ∀ at_ e, h.files.get? at_ = some e → h'.files.get? at_ = none →
    ∃ p ∈ ps, h.files.LeadsTo m.cwd p at_

namespace Takes

variable {mark : String} {p : Path} {ps : List Path} {h h' h'' : Host}

/-- The files are as they were. -/
theorem of_files (hfiles : h'.files = h.files) : Takes m mark ps h h' := by
  refine ⟨hfiles ▸ .refl _, fun _ => hfiles ▸ .refl _ _, fun at_ e he hnone => ?_⟩
  rw [hfiles, he] at hnone
  cases hnone

/-- One file and then others. -/
theorem trans (ht : Takes m mark [p] h h') (ht' : Takes m mark ps h' h'') :
    Takes m mark (p :: ps) h h'' := by
  refine ⟨ht'.shrunk.trans ht.shrunk, fun hlinks => ?_, fun at_ e he hnone => ?_⟩
  · exact (ht.confined hlinks).trans (ht'.confined ((ht.confined hlinks).noLinks hlinks))
  · cases hmid : h'.files.get? at_ with
    | none =>
      obtain ⟨p', hp', hleads⟩ := ht.gone at_ e he hmid
      exact ⟨p', List.mem_cons.mpr (.inl (List.mem_singleton.mp hp')), hleads⟩
    | some e' =>
      obtain ⟨p', hp', e'', hleads⟩ := ht'.gone at_ e' hmid hnone
      obtain ⟨e₀, hfirst, -⟩ := Files.locate_grows ht.shrunk hleads
      exact ⟨p', List.mem_cons_of_mem _ hp', e₀, hfirst⟩

/-- Removing a file under a marked name. -/
theorem removeFile (hp : p.Bears mark) (h : Host) :
    Leads (CompilationUnit.removeFile m p) h fun _ h' => Takes m mark [p] h h' := by
  refine (CompilationUnit.removeFile_outcome m p h).mono fun _ h' hr => ?_
  cases hr with
  | kept herror => exact .of_files rfl
  | @gone fs hok =>
    obtain ⟨loc, e₀, hl, -, hfs⟩ := Files.remove_eq_ok hok
    rw [Files.bare_of_bears hp] at hl
    refine ⟨?_, fun hlinks => Files.confined_remove hp hlinks hok, fun at_ e he hnone => ?_⟩
    · rw [hfs]
      exact Files.grows_of_erase h.files loc
    · have hnone : fs.get? at_ = none := hnone
      have hn : at_ ≠ [] := by
        rintro rfl
        rw [Files.get?_nil] at hnone
        cases hnone
      rw [hfs, Files.get?_erase h.files loc at_ hn] at hnone
      split at hnone
      · next heq => exact ⟨p, List.mem_singleton_self p, e₀, heq ▸ hl⟩
      · rw [he] at hnone
        cases hnone

/-- Removing files under marked names. -/
theorem removeFiles (hps : ∀ p ∈ ps, p.Bears mark) (h : Host) :
    Leads (ps.forM (CompilationUnit.removeFile m)) h fun _ h' => Takes m mark ps h h' := by
  induction ps generalizing h with
  | nil => exact .of_files rfl
  | cons p rest ih =>
    unfold List.forM
    refine Leads.bind (removeFile (hps p List.mem_cons_self) h) fun _ h₁ ht => ?_
    exact (ih (fun q hq => hps q (List.mem_cons_of_mem _ hq)) h₁).mono fun _ _ ht' => ht.trans ht'

end Takes

namespace CompilationUnit

variable {u : CompilationUnit} {ds : List Deed}

/-! ## Any operation -/

/-- From some files to others nothing happens but under names with the token of the run if no link
has one, and one of the paths led to what is gone. -/
structure Handles (m : Machine) (ps : List Path) (fs fs' : Files) : Prop where
  confined : fs.NoLinks (token m.pid) → fs.Confined (token m.pid) fs'
  gone : ∀ at_ e, fs.get? at_ = some e → fs'.get? at_ = none →
    ∃ p ∈ ps, fs.LeadsTo m.cwd p at_

/-- Where the files grow nothing is gone. -/
theorem Handles.of_confines {ps : List Path} {h h' : Host} (hc : Confines (token m.pid) h h') :
    Handles m ps h.files h'.files := by
  refine ⟨hc.2, fun at_ e he hnone => ?_⟩
  obtain ⟨e', he', -⟩ := hc.1.kept he
  rw [hnone] at he'
  cases he'

/-- What an operation on a unit does to the files: only a scan asks for packages first, and nothing
is gone but what is to be removed. -/
theorem Deed.handles (hn : u.Named m.pid) (d : Deed)
    (hbears : ∀ p ∈ u.removals cfg d.op, p.Bears (token m.pid)) :
    ∃ fs, Package.Asked m cfg.pkgConfig d.host.files fs ∧ (d.op ≠ .scan → fs = d.host.files) ∧
      Handles m (u.removals cfg d.op) fs (d.run m cfg u).2.files := by
  have hconfines : Confines (token m.pid) d.host (d.run m cfg u).2 →
      ∃ fs, Package.Asked m cfg.pkgConfig d.host.files fs ∧ (d.op ≠ .scan → fs = d.host.files) ∧
        Handles m (u.removals cfg d.op) fs (d.run m cfg u).2.files :=
    fun hc => ⟨_, .refl, fun _ => rfl, .of_confines hc⟩
  obtain ⟨op, h⟩ := d
  cases op with
  | scan =>
    obtain ⟨h₁, hasked, hc⟩ := @scan_confines m cfg u hn h
    exact ⟨h₁.files, hasked, fun hop => (hop rfl).elim, .of_confines hc⟩
  | pushFlags run => exact hconfines (.of_files rfl)
  | pushPrivateFlags run => exact hconfines (.of_files rfl)
  | pushFlagText text => exact hconfines (.of_files rfl)
  | pushPrivateFlagText text => exact hconfines (.of_files rfl)
  | openCopy => exact hconfines (openCopy_confines hn h).1
  | writeCopy content => exact hconfines (writeCopy_confines hn content h)
  | object =>
    have hyields := object_yields m cfg u h
    exact hconfines (Yields.confines hyields hn .object rfl)
  | executable =>
    have hyields := executable_yields m cfg u h
    exact hconfines (Yields.confines hyields hn .executable rfl)
  | cleanup =>
    have hrun : (Deed.run m cfg u ⟨.cleanup, h⟩).2 =
        (((u.removals cfg .cleanup).forM (removeFile m)).run h).2 :=
      congrArg Prod.snd (run_cleanup_eq u h)
    rw [hrun]
    have ht := Takes.removeFiles (m := m) hbears h
    exact ⟨h.files, .refl, fun _ => rfl, ht.confined, ht.gone⟩
  | removeExecutable =>
    have hrun : (Deed.run m cfg u ⟨.removeExecutable, h⟩).2 =
        (((u.removals cfg .removeExecutable).forM (removeFile m)).run h).2 :=
      congrArg Prod.snd (run_removeExecutable_eq u h)
    rw [hrun]
    have ht := Takes.removeFiles (m := m) hbears h
    exact ⟨h.files, .refl, fun _ => rfl, ht.confined, ht.gone⟩

/-- What is to be removed has been found before. -/
theorem removals_found (hcopied : u.copied = false) (hobject : u.object? = none)
    (hexecutable : u.executable? = none) (op : Op) {p : Path}
    (hp : p ∈ (after m cfg u ds).removals cfg op) : ∃ art, u.Found m cfg ds art p := by
  cases op with
  | cleanup =>
    rw [removals] at hp
    split at hp
    · cases hp
    · rw [intermediates, List.mem_append, Option.mem_toList] at hp
      rcases hp with hcopy | hp
      · split at hcopy
        · next hc =>
          rw [List.mem_singleton.mp hcopy]
          exact ⟨.copy, copy_found hcopied hc⟩
        · cases hcopy
      · exact ⟨.object, object_found hobject hp⟩
  | removeExecutable =>
    rw [removals] at hp
    split at hp
    · cases hp
    · next hkeep =>
      rw [Option.mem_toList] at hp
      refine ⟨.executable, (executable_found hexecutable hp).resolve_left ?_⟩
      rintro ⟨-, hasked⟩
      refine hkeep ?_
      rw [Config.buildsOnly, hasked, Option.isSome_some, Bool.or_true]
  | _ => cases hp

/-- What is to be removed from a unit bears the token, is not known by the name of the unit's file,
and has been found before. -/
theorem removals_bear {m : Machine} {h₀ : Host} {kind : UnitKind} {q : Path} (ds : List Deed)
    (op : Op) {p : Path} (hp : p ∈ (after m cfg (ofPath m h₀ kind q) ds).removals cfg op) :
    p.Bears (token m.pid) ∧ p.components ≠ q.normalize.components ∧
      ∃ art, (ofPath m h₀ kind q).Found m cfg ds art p := by
  obtain ⟨art, hfound⟩ := removals_found rfl rfl rfl op hp
  have hnamed := hfound.namedAfter (named_ofPath m h₀ kind q)
  exact ⟨hnamed.bears, NamedAfter.ne_file hnamed, art, hfound⟩

/-- Whatever is asked of a unit in a row, nothing happens but under names with the token, if package
queries keep to them too. -/
theorem performAll_confined {m : Machine} {h₀ : Host} {kind : UnitKind} {q : Path}
    (hquiet : ∀ fs fs', Package.Asked m cfg.pkgConfig fs fs' → fs.Confined (token m.pid) fs')
    (ops : List Op) (ds : List Deed) (h : Host) (hlinks : h.files.NoLinks (token m.pid)) :
    Leads (performAll m cfg (after m cfg (ofPath m h₀ kind q) ds) ops) h fun _ h' =>
      h.files.Confined (token m.pid) h'.files := by
  induction ops generalizing ds h with
  | nil => exact .refl _ _
  | cons op rest ih =>
    obtain ⟨fs, hasked, -, hhandles⟩ :=
      Deed.handles (named_after (named_ofPath m h₀ kind q) ds) ⟨op, h⟩
        fun p hp => (removals_bear ds op hp).1
    have hqueries := hquiet _ _ hasked
    have hconfined := hqueries.trans (hhandles.confined (hqueries.noLinks hlinks))
    have hrest := ih (ds ++ [⟨op, h⟩]) (Deed.run m cfg _ ⟨op, h⟩).2 (hconfined.noLinks hlinks)
    rw [after_concat] at hrest
    exact hconfined.trans hrest

/-- What may happen to files for the sake of a unit. Each file that is to be removed bears the token
of the run in its last name, is not known by the name of the unit's file, and has been found for the
unit by an earlier operation; an executable that was asked for is never to be removed. Each
operation only takes away what is to be removed, and as long as no link bears the token, it leaves
all that does not bear it as it was and brings no such link; what a scan does so it does behind the
package queries that it asks. So nothing that does not bear the token is taken away, emptied or
written to by any operations in a row, if package queries do no such thing. -/
theorem operations_confined (m : Machine) (cfg : Config) (h₀ : Host) (kind : UnitKind) (q : Path)
    (ds : List Deed) (u₀ u : CompilationUnit) (hnew : u₀ = ofPath m h₀ kind q)
    (hrun : u = after m cfg u₀ ds) :
    (∀ op, ∀ p ∈ u.removals cfg op, p.Bears (token m.pid) ∧
      p.components ≠ u.path.components ∧ ∃ art, u₀.Found m cfg ds art p) ∧
    (∀ asked, cfg.executable = some asked → u.removals cfg .removeExecutable = []) ∧
    (∀ d : Deed, ∃ fs, Package.Asked m cfg.pkgConfig d.host.files fs ∧
      (d.op ≠ .scan → fs = d.host.files) ∧
      (∀ at_ e, fs.get? at_ = some e → (d.run m cfg u).2.files.get? at_ = none →
        ∃ p ∈ u.removals cfg d.op, fs.LeadsTo m.cwd p at_) ∧
      (fs.NoLinks (token m.pid) → fs.Confined (token m.pid) (d.run m cfg u).2.files ∧
        (d.run m cfg u).2.files.NoLinks (token m.pid))) ∧
    ((∀ fs fs', Package.Asked m cfg.pkgConfig fs fs' → fs.Confined (token m.pid) fs') →
      ∀ ops h u' h', (performAll m cfg u ops).run h = (u', h') →
        h.files.NoLinks (token m.pid) → h.files.Confined (token m.pid) h'.files) := by
  have hpath : u.path = q.normalize := by
    rw [hrun, (after_same u₀ ds).1, hnew]
    rfl
  subst hnew hrun
  refine ⟨fun op p hp => ?_, fun asked hasked => ?_, fun d => ?_,
    fun hquiet ops h u' h' hperform hlinks => ?_⟩
  · rw [hpath]
    exact removals_bear ds op hp
  · rw [removals, if_pos (by rw [Config.buildsOnly, hasked, Option.isSome_some, Bool.or_true])]
  · obtain ⟨fs, hasked, hstill, hhandles⟩ :=
      Deed.handles (named_after (named_ofPath m h₀ kind q) ds) d
        fun p hp => (removals_bear ds d.op hp).1
    exact ⟨fs, hasked, hstill, hhandles.gone, fun hlinks =>
      ⟨hhandles.confined hlinks, (hhandles.confined hlinks).noLinks hlinks⟩⟩
  · exact (leads_of_run hperform _).mp (performAll_confined hquiet ops ds h hlinks)

/-- The unit for a source that cannot have its copy beside it and the host, when the copy has been
opened. -/
def openedStray : CompilationUnit × Host :=
  Deed.run desk { cacheRoot := ⟨"c"⟩ } strayUnit ⟨.openCopy, memo⟩

/-- To clean up is then to remove the copy that was found below the cache root, and nothing happens
to the files that do not bear the token. -/
theorem operations_confined_stray :
    openedStray.1.removals { cacheRoot := ⟨"c"⟩ } .cleanup = [⟨"c/w/gone/a-hbcxx-7.cpp"⟩] ∧
      (∃ art, strayUnit.Found desk { cacheRoot := ⟨"c"⟩ } [⟨.openCopy, memo⟩] art
        ⟨"c/w/gone/a-hbcxx-7.cpp"⟩) ∧
      openedStray.2.files.NoLinks (token desk.pid) ∧
      openedStray.2.files.Confined (token desk.pid)
        (Deed.run desk { cacheRoot := ⟨"c"⟩ } openedStray.1 ⟨.cleanup, openedStray.2⟩).2.files := by
  have hremovals : openedStray.1.removals { cacheRoot := ⟨"c"⟩ } .cleanup =
      [⟨"c/w/gone/a-hbcxx-7.cpp"⟩] := by
    decide +kernel
  have hmemo : memo.files.NoLinks (token desk.pid) := by
    have hlinkless : memo.files.Linkless := by
      apply Files.linkless_of_entries
      simp [memo]
    exact fun before after dir target hlink => hlinkless _ target hlink
  have hnone : strayUnit = after desk { cacheRoot := ⟨"c"⟩ } strayUnit [] := by
    rw [after, List.foldl_nil]
  have hone : openedStray.1 =
      after desk { cacheRoot := ⟨"c"⟩ } strayUnit [⟨.openCopy, memo⟩] := by
    rw [after, List.foldl_cons, List.foldl_nil, openedStray]
  -- The unit and the host are not to be evaluated from here on.
  obtain ⟨r, hr⟩ : ∃ r, openedStray = r := ⟨_, rfl⟩
  obtain ⟨-, -, hopen, -⟩ := operations_confined desk { cacheRoot := ⟨"c"⟩ } memo .source
    ⟨"gone/a.cpp"⟩ [] strayUnit strayUnit rfl hnone
  obtain ⟨fs, -, hfs, -, hopened⟩ := hopen ⟨.openCopy, memo⟩
  rw [hfs (by simp), ← openedStray] at hopened
  obtain ⟨hfound, -, hclean, -⟩ := operations_confined desk { cacheRoot := ⟨"c"⟩ } memo .source
    ⟨"gone/a.cpp"⟩ [⟨.openCopy, memo⟩] strayUnit openedStray.1 rfl hone
  rw [hr] at hopened hclean hfound hremovals ⊢
  have hlinks : r.2.files.NoLinks (token desk.pid) := (hopened hmemo).2
  obtain ⟨fs', -, hfs', -, hcleaned⟩ := hclean ⟨.cleanup, r.2⟩
  rw [hfs' (by simp)] at hcleaned
  refine ⟨hremovals, ?_, hlinks, (hcleaned hlinks).1⟩
  refine (hfound .cleanup ⟨"c/w/gone/a-hbcxx-7.cpp"⟩ ?_).2.2
  rw [hremovals]
  exact List.mem_singleton_self _

end CompilationUnit

end CxxScript

import CxxScript.Build.Steps
import CxxScript.Proofs.Host.Leads

/-!
# Clearing up

All that clearing up after a build does to the host is to remove files, one after the other. So it
keeps whatever the removal of one file keeps, `ClearFrame`: nothing is written down but the
removals, the signals stay as they are, and files are only taken away. So each file that a build has
made for the time being is gone then, or what has kept it has been written down,
`Build.clearUp_disposes`.
-/

set_option autoImplicit false

namespace CxxScript

open Host

/-- A relation between hosts that the removal of a file keeps. -/
structure ClearFrame (m : Machine) (R : Host → Host → Prop) : Prop where
  refl : ∀ h, R h h
  trans : ∀ {a b c}, R a b → R b c → R a c
  remove : ∀ p h, Leads (CompilationUnit.removeFile m p) h fun _ h' => R h h'

variable {m : Machine} {cfg : Config} {R : Host → Host → Prop}

namespace CompilationUnit

/-- Removing the copy and the object of a unit. -/
theorem cleanup_clears (F : ClearFrame m R) (u : CompilationUnit) (h : Host) :
    Leads (u.cleanup m cfg) h fun _ h' => R h h' := by
  unfold cleanup
  split
  · exact F.refl h
  · dsimp only
    cases u.object? with
    | none =>
      split
      · exact Leads.bind (F.remove u.copy h) fun _ h₁ hR₁ => hR₁
      · exact F.refl h
    | some object =>
      have hobject : ∀ h₁, R h h₁ → Leads (removeFile m object) h₁ fun _ h₂ => R h h₂ :=
        fun h₁ hR₁ => (F.remove object h₁).mono fun _ _ hR₂ => F.trans hR₁ hR₂
      split
      · refine Leads.bind (F.remove u.copy h) fun _ h₁ hR₁ => ?_
        exact Leads.bind (hobject h₁ hR₁) fun _ h₂ hR₂ => hR₂
      · exact Leads.bind (hobject h (F.refl h)) fun _ h₁ hR₁ => hR₁

/-- The unit after its copy and its object were removed. -/
def cleaned (cfg : Config) (u : CompilationUnit) : CompilationUnit :=
  if cfg.saveTemps then u else { u with copied := false, object? := none }

/-- Unless temporary files are kept, the unit has neither then. -/
theorem cleaned_of_discarding (hsave : cfg.saveTemps = false) (u : CompilationUnit) :
    u.cleaned cfg = { u with copied := false, object? := none } := by
  rw [cleaned, hsave]
  rfl

/-- The executable stays. -/
theorem cleaned_executable? (cfg : Config) (u : CompilationUnit) :
    (u.cleaned cfg).executable? = u.executable? := by
  unfold cleaned
  split <;> rfl

/-- The unit after its executable was removed. -/
def withoutExecutable (cfg : Config) (u : CompilationUnit) : CompilationUnit :=
  if cfg.saveTemps || cfg.buildsOnly then u else { u with executable? := none }

/-- Removing the copy and the object of a unit makes it forget them. -/
theorem cleanup_result (u : CompilationUnit) (h : Host) :
    Leads (u.cleanup m cfg) h fun u' _ => u' = u.cleaned cfg := by
  unfold cleanup cleaned
  split
  · exact rfl
  · dsimp only
    cases u.object? with
    | none =>
      split
      · exact Leads.skip fun _ _ => rfl
      · exact rfl
    | some object =>
      split
      · exact Leads.skip fun _ _ => Leads.skip fun _ _ => rfl
      · exact Leads.skip fun _ _ => rfl

/-- Removing the executable of a unit makes it forget it. -/
theorem removeExecutable_result (u : CompilationUnit) (h : Host) :
    Leads (u.removeExecutable m cfg) h fun u' _ => u' = u.withoutExecutable cfg := by
  unfold removeExecutable withoutExecutable
  split
  · exact rfl
  · cases u.executable? with
    | none => exact rfl
    | some executable => exact Leads.skip fun _ _ => rfl

/-- Removing the executable of a unit. -/
theorem removeExecutable_clears (F : ClearFrame m R) (u : CompilationUnit) (h : Host) :
    Leads (u.removeExecutable m cfg) h fun _ h' => R h h' := by
  unfold removeExecutable
  split
  · exact F.refl h
  · cases u.executable? with
    | none => exact F.refl h
    | some executable => exact Leads.bind (F.remove executable h) fun _ h₁ hR₁ => hR₁

end CompilationUnit

namespace Build

/-- Removing the copies and objects of units. -/
theorem cleanUnits_clears (F : ClearFrame m R) (us : List CompilationUnit) (h : Host) :
    Leads (cleanUnits m cfg us) h fun _ h' => R h h' := by
  induction us generalizing h with
  | nil => exact F.refl h
  | cons u rest ih =>
    unfold cleanUnits
    refine Leads.bind (u.cleanup_clears F h) fun u' h₁ hR₁ => ?_
    exact Leads.bind (ih h₁) fun us' h₂ hR₂ => F.trans hR₁ hR₂

/-- Removing the copies and objects of a build. -/
theorem cleanup_clears (F : ClearFrame m R) (b : Build) (h : Host) :
    Leads (b.cleanup m) h fun _ h' => R h h' := by
  unfold cleanup
  refine Leads.bind (cleanUnits_clears F b.units h) fun us h₁ hR₁ => ?_
  exact hR₁

/-- Removing the copies and objects of units makes them forget them. -/
theorem cleanUnits_result (us : List CompilationUnit) (h : Host) :
    Leads (cleanUnits m cfg us) h fun us' _ => us' = us.map (·.cleaned cfg) := by
  induction us generalizing h with
  | nil => exact rfl
  | cons u rest ih =>
    unfold cleanUnits
    refine Leads.bind (u.cleanup_result h) fun u' h₁ hu => ?_
    refine Leads.bind (ih h₁) fun us' h₂ hrest => ?_
    show u' :: us' = _
    rw [hu, hrest, List.map_cons]

/-- Removing the copies and objects of a build makes its units forget them. -/
theorem cleanup_result (b : Build) (h : Host) :
    Leads (b.cleanup m) h fun b' _ => b' = b.withUnits (b.units.map (·.cleaned b.config)) := by
  unfold cleanup
  refine Leads.bind (cleanUnits_result b.units h) fun us h₁ hus => ?_
  show b.withUnits us = _
  rw [hus]

/-- Remove all that a build has made: the copies, the objects and the executable. -/
def clearUp (m : Machine) (b : Build) : StateM Host Build := do
  let b ← b.cleanup m
  b.removeExecutable m

/-- Removing all that a build has made makes its units forget it. -/
theorem clearUp_result (b : Build) (h : Host) :
    Leads (b.clearUp m) h fun b' _ => b'.config = b.config ∧
      b'.primary = (b.primary.cleaned b.config).withoutExecutable b.config ∧
      b'.others = b.others.map (·.cleaned b.config) := by
  unfold clearUp
  refine Leads.bind (cleanup_result b h) fun b₁ h₁ hb₁ => ?_
  subst hb₁
  unfold removeExecutable
  refine Leads.bind (CompilationUnit.removeExecutable_result _ h₁) fun u h₂ hu => ?_
  exact ⟨rfl, hu, rfl⟩

/-- Removing all that a build has made. -/
theorem clearUp_clears (F : ClearFrame m R) (b : Build) (h : Host) :
    Leads (b.clearUp m) h fun _ h' => R h h' := by
  unfold clearUp
  refine Leads.bind (cleanup_clears F b h) fun b₁ h₁ hR₁ => ?_
  unfold removeExecutable
  refine Leads.bind (CompilationUnit.removeExecutable_clears F b₁.primary h₁) fun u h₂ hR₂ => ?_
  exact F.trans hR₁ hR₂

end Build

/-! ## What removing a file keeps -/

/-- Removing a file takes it away, or changes no file; either is written down. -/
inductive Removal (m : Machine) (p : Path) (h : Host) : Host → Prop where
  | gone {fs : Files} (hok : h.files.remove m.cwd p = .ok fs) :
    Removal m p h ({ h with files := fs }.noted (.removed p))
  | kept {cause : IoError} (herror : h.files.remove m.cwd p = .error cause) :
    Removal m p h (h.noted (.notRemoved p cause))

/-- What the tool does to remove a file. -/
theorem CompilationUnit.removeFile_outcome (m : Machine) (p : Path) (h : Host) :
    Leads (removeFile m p) h fun _ h' => Removal m p h h' := by
  unfold removeFile
  rcases run_remove m p h with ⟨fs, hok, hrun⟩ | ⟨cause, herror, hrun⟩
  · exact (leads_bind _ _ _ _).mpr ((leads_of_run hrun _).mpr (.gone hok))
  · exact (leads_bind _ _ _ _).mpr ((leads_of_run hrun _).mpr (.kept herror))

/-- Whether an event tells of a removal. -/
def IsRemoval (e : Event) : Prop :=
  (∃ p, e = .note (.removed p)) ∨ ∃ p cause, e = .note (.notRemoved p cause)

/-- Clearing up writes down nothing but the removals and leaves the signals as they are. -/
theorem removalFrame (m : Machine) :
    ClearFrame m fun h h' => Wrote IsRemoval h h' ∧ h'.signals = h.signals where
  refl _ := ⟨.of_eq rfl, rfl⟩
  trans h h' := ⟨h.1.trans h'.1, h'.2.trans h.2⟩
  remove p h := by
    refine (CompilationUnit.removeFile_outcome m p h).mono fun _ h' hr => ?_
    cases hr with
    | gone hok => exact ⟨.single rfl (.inl ⟨p, rfl⟩), rfl⟩
    | kept herror => exact ⟨.single rfl (.inr ⟨p, _, rfl⟩), rfl⟩

/-- Clearing up only takes files away. -/
theorem shrinkFrame (m : Machine) : ClearFrame m fun h h' => h'.files.Grows h.files where
  refl _ := .refl _
  trans h h' := h'.trans h
  remove p h := by
    refine (CompilationUnit.removeFile_outcome m p h).mono fun _ h' hr => ?_
    cases hr with
    | gone hok =>
      obtain ⟨at_, -, -, -, rfl⟩ := Files.remove_eq_ok hok
      exact Files.grows_of_erase h.files at_
    | kept herror => exact .refl _

/-- Clearing up looks for no interrupt. -/
theorem pollFrame (m : Machine) : ClearFrame m fun h h' => h'.polls = h.polls where
  refl _ := rfl
  trans h h' := h'.trans h
  remove p h := by
    refine (CompilationUnit.removeFile_outcome m p h).mono fun _ h' hr => ?_
    cases hr <;> rfl

/-! ## What has been removed -/

namespace Files

variable {fs fs' : Files} {wd : WorkingDir} {p : Path}

/-- A path leads to nothing that could be removed. -/
def Lacks (fs : Files) (wd : WorkingDir) (p : Path) : Prop :=
  ∀ at_ e, fs.locate wd .linkItself p ≠ .ok (.present at_ e)

/-- Where files are taken away, what was not there is not there. -/
theorem Lacks.of_grows (hl : fs'.Lacks wd p) (h : Grows fs fs') : fs.Lacks wd p := by
  intro at_ e hp
  obtain ⟨e', he', -⟩ := locate_grows h hp
  exact hl at_ e' he'

/-- What has been removed is not there. -/
theorem lacks_of_remove (h : fs.remove wd p = .ok fs') : fs'.Lacks wd p := by
  have hbare : bare p = p := by
    unfold remove at h
    split at h
    · cases h
    · split at h
      · assumption
      · cases h
    · cases h
    · cases h
  obtain ⟨at_, e, hl, hdir, rfl⟩ := remove_eq_ok h
  rw [hbare] at hl
  have hthere : fs.get? at_ = some e := get?_of_follow (locate_eq_ok hl).2.2.2 hdir
  have hroot : at_ ≠ [] := by
    rintro rfl
    rw [get?_nil] at hthere
    exact hdir (Option.some.inj hthere).symm
  intro at' e' hp
  -- It would have been there before, and at the same place.
  obtain ⟨e'', hl'', hb⟩ := locate_grows (grows_of_erase fs at_) hp
  rw [hl] at hl''
  cases hl''
  have hdir' : e' ≠ .directory := by
    rintro rfl
    exact hdir (hb.eq_of_not_file rfl)
  have hgone := get?_of_follow (locate_eq_ok hp).2.2.2 hdir'
  rw [get?_erase fs at_ at_ hroot, if_pos rfl] at hgone
  cases hgone

end Files

/-- From `h` to `h'` a file has been removed, or what has kept it has been written down. -/
def Disposed (m : Machine) (p : Path) (h h' : Host) : Prop :=
  h'.files.Lacks m.cwd p ∨
    ∃ es cause, h'.events = h.events ++ es ∧ Event.note (.notRemoved p cause) ∈ es

/-- What is removed later is removed. -/
theorem Disposed.after {p : Path} {a b c : Host} {P : Event → Prop} (hw : Wrote P a b)
    (hd : Disposed m p b c) : Disposed m p a c := by
  obtain ⟨es, hes, -⟩ := hw
  refine hd.imp id ?_
  rintro ⟨es', cause, hes', hmem⟩
  exact ⟨es ++ es', cause, by rw [hes', hes, List.append_assoc], List.mem_append_right _ hmem⟩

/-- What has been removed stays so while files are taken away. -/
theorem Disposed.before {p : Path} {a b c : Host} {P : Event → Prop} (hd : Disposed m p a b)
    (hw : Wrote P b c) (hg : c.files.Grows b.files) : Disposed m p a c := by
  obtain ⟨es', hes', -⟩ := hw
  refine hd.imp (fun hl => hl.of_grows hg) ?_
  rintro ⟨es, cause, hes, hmem⟩
  exact ⟨es ++ es', cause, by rw [hes', hes, List.append_assoc], List.mem_append_left _ hmem⟩

/-- What one removal keeps and what every one does. -/
theorem ClearFrame.and {R S : Host → Host → Prop} (F : ClearFrame m R) (G : ClearFrame m S) :
    ClearFrame m fun h h' => R h h' ∧ S h h' where
  refl h := ⟨F.refl h, G.refl h⟩
  trans h h' := ⟨F.trans h.1 h'.1, G.trans h.2 h'.2⟩
  remove p h := ⟨F.remove p h, G.remove p h⟩

/-- Files are only taken away, and nothing is written down but that. -/
theorem takeFrame (m : Machine) :
    ClearFrame m fun h h' => (Wrote IsRemoval h h' ∧ h'.signals = h.signals) ∧
      h'.files.Grows h.files := (removalFrame m).and (shrinkFrame m)

namespace CompilationUnit

/-- A file that is to be removed is gone, or what has kept it is written down. -/
theorem removeFile_disposes (p : Path) (h : Host) :
    Leads (removeFile m p) h fun _ h' => Disposed m p h h' := by
  refine (removeFile_outcome m p h).mono fun _ h' hr => ?_
  cases hr with
  | gone hok => exact .inl (Files.lacks_of_remove hok)
  | kept herror => exact .inr ⟨_, _, rfl, List.mem_singleton_self _⟩

/-- The copy and the object of a unit. -/
def intermediates (u : CompilationUnit) : List Path :=
  (if u.copied then [u.copy] else []) ++ u.object?.toList

/-- Removing the copy and the object of a unit. -/
theorem cleanup_disposes (hsave : cfg.saveTemps = false) (u : CompilationUnit) (h : Host) :
    Leads (u.cleanup m cfg) h fun _ h' => ∀ p ∈ u.intermediates, Disposed m p h h' := by
  unfold cleanup intermediates
  rw [hsave, if_neg Bool.false_ne_true]
  have hobject : ∀ {object : Path} (h₁ : Host), Leads (removeFile m object) h₁ fun _ h₂ =>
      Disposed m object h₁ h₂ ∧ Wrote IsRemoval h₁ h₂ ∧ h₂.files.Grows h₁.files := by
    intro object h₁
    obtain ⟨⟨hwrote, -⟩, hgrows⟩ := (takeFrame m).remove object h₁
    exact ⟨removeFile_disposes object h₁, hwrote, hgrows⟩
  dsimp only
  cases u.object? with
  | none =>
    split
    · refine Leads.bind (removeFile_disposes u.copy h) fun _ h₁ hd => ?_
      exact List.forall_mem_singleton.mpr hd
    · exact fun p hp => by cases hp
  | some object =>
    split
    · refine Leads.bind (hobject h) fun _ h₁ hcopy => ?_
      refine Leads.bind (hobject h₁) fun _ h₂ hd => ?_
      refine List.forall_mem_cons.mpr ⟨hcopy.1.before hd.2.1 hd.2.2, ?_⟩
      exact List.forall_mem_singleton.mpr (hd.1.after hcopy.2.1)
    · refine Leads.bind (removeFile_disposes object h) fun _ h₁ hd => ?_
      exact List.forall_mem_singleton.mpr hd

/-- Removing the executable of a unit, unless it was asked for. -/
theorem removeExecutable_disposes (hsave : cfg.saveTemps = false) (hbuild : cfg.buildsOnly = false)
    (u : CompilationUnit) (h : Host) : Leads (u.removeExecutable m cfg) h fun _ h' =>
      ∀ p ∈ u.executable?.toList, Disposed m p h h' := by
  unfold removeExecutable
  rw [hsave, hbuild, if_neg (by simp)]
  cases u.executable? with
  | none => exact fun p hp => by cases hp
  | some executable =>
    refine Leads.bind (removeFile_disposes executable h) fun _ h₁ hd => ?_
    exact List.forall_mem_singleton.mpr hd

end CompilationUnit

namespace Build

/-- Removing the copies and objects of units. -/
theorem cleanUnits_disposes (hsave : cfg.saveTemps = false) (us : List CompilationUnit) (h : Host) :
    Leads (cleanUnits m cfg us) h fun _ h' =>
      ∀ u ∈ us, ∀ p ∈ u.intermediates, Disposed m p h h' := by
  induction us generalizing h with
  | nil => exact fun u hu => by cases hu
  | cons u rest ih =>
    have hrest : ∀ h₁ : Host, Leads (cleanUnits m cfg rest) h₁ fun _ h₂ =>
        (∀ u ∈ rest, ∀ p ∈ u.intermediates, Disposed m p h₁ h₂) ∧ Wrote IsRemoval h₁ h₂ ∧
          h₂.files.Grows h₁.files := by
      intro h₁
      have htake : Leads (cleanUnits m cfg rest) h₁ fun _ h₂ =>
          (Wrote IsRemoval h₁ h₂ ∧ h₂.signals = h₁.signals) ∧ h₂.files.Grows h₁.files :=
        cleanUnits_clears (takeFrame m) rest h₁
      exact ⟨ih h₁, htake.1.1, htake.2⟩
    have hfirst : Leads (u.cleanup m cfg) h fun _ h₁ =>
        (∀ p ∈ u.intermediates, Disposed m p h h₁) ∧ Wrote IsRemoval h h₁ :=
      ⟨u.cleanup_disposes hsave h, (u.cleanup_clears (removalFrame m) h).1⟩
    unfold cleanUnits
    refine Leads.bind hfirst fun u' h₁ hu => ?_
    refine Leads.bind (hrest h₁) fun us' h₂ hr => ?_
    refine List.forall_mem_cons.mpr ⟨fun p hp => (hu.1 p hp).before hr.2.1 hr.2.2, ?_⟩
    exact fun v hv p hp => (hr.1 v hv p hp).after hu.2

/-- What a build has made for the time being: the copies, the objects, and the executable, unless it
was asked for. -/
def temporaries (b : Build) : List Path :=
  b.units.flatMap (·.intermediates) ++
    if b.config.buildsOnly then [] else b.primary.executable?.toList

/-- Removing all that a build has made. -/
theorem clearUp_disposes (b : Build) (hsave : b.config.saveTemps = false) (h : Host) :
    Leads (b.clearUp m) h fun _ h' => ∀ p ∈ b.temporaries, Disposed m p h h' := by
  have hcleanup : Leads (b.cleanup m) h fun b₁ h₁ =>
      (∀ u ∈ b.units, ∀ p ∈ u.intermediates, Disposed m p h h₁) ∧ Wrote IsRemoval h h₁ ∧
        b₁.config = b.config ∧ b₁.primary.executable? = b.primary.executable? := by
    have hresult : Leads (b.cleanup m) h fun b₁ _ => b₁.config = b.config ∧
        b₁.primary.executable? = b.primary.executable? := by
      refine (cleanup_result b h).mono fun b₁ h₁ hb₁ => ?_
      rw [hb₁]
      exact ⟨rfl, b.primary.cleaned_executable? b.config⟩
    have hdisposes : Leads (b.cleanup m) h fun _ h₁ =>
        ∀ u ∈ b.units, ∀ p ∈ u.intermediates, Disposed m p h h₁ := by
      unfold cleanup
      exact Leads.bind (cleanUnits_disposes hsave b.units h) fun _ h₁ hd => hd
    exact ⟨hdisposes, (cleanup_clears (removalFrame m) b h).1, hresult⟩
  unfold clearUp
  refine Leads.bind hcleanup fun b₁ h₁ hr => ?_
  obtain ⟨hunits, hwrote, hconfig, hexecutable⟩ := hr
  have hunit : Leads (b₁.primary.removeExecutable m b₁.config) h₁ fun _ h₂ =>
      (∀ p ∈ if b.config.buildsOnly then [] else b.primary.executable?.toList,
        Disposed m p h₁ h₂) ∧ Wrote IsRemoval h₁ h₂ ∧ h₂.files.Grows h₁.files := by
    have htake : Leads (b₁.primary.removeExecutable m b₁.config) h₁ fun _ h₂ =>
        (Wrote IsRemoval h₁ h₂ ∧ h₂.signals = h₁.signals) ∧ h₂.files.Grows h₁.files :=
      b₁.primary.removeExecutable_clears (takeFrame m) h₁
    refine ⟨?_, htake.1.1, htake.2⟩
    split
    · exact fun p hp => by cases hp
    · next hbuild =>
      rw [← hexecutable]
      rw [← hconfig] at hsave hbuild
      exact b₁.primary.removeExecutable_disposes hsave (Bool.eq_false_iff.mpr hbuild) h₁
  unfold removeExecutable
  refine Leads.bind hunit fun _ h₂ hr => ?_
  intro p hp
  rcases List.mem_append.mp hp with hp | hp
  · obtain ⟨u, hu, hpu⟩ := List.mem_flatMap.mp hp
    exact (hunits u hu p hpu).before hr.2.1 hr.2.2
  · exact (hr.1 p hp).after hwrote

end Build

end CxxScript

import CxxScript.Proofs.Build.Opening
import CxxScript.Proofs.Build.Operating
import CxxScript.Proofs.Build.Requests
import CxxScript.Proofs.Build.Twins

/-!
# Scanning a unit again

A scan may be made again. Flags that it has pushed are not pushed a second time, wherever they stand
by then; a copy that it has written is opened where it stands, emptied and written once more. So a
scan of a unit that is told what an earlier scan of it was told comes to the same end and leaves the
unit as it is, and one that an interrupt has cut short leaves no more than flags that the next scan
pushes first: `scan_restarts`.
-/

set_option autoImplicit false

namespace CxxScript

open Host

/-! ## Places that are looked for again -/

namespace Placement

variable {m : Machine} {root p : Path} {h h' : Host}

/-- A path that can be opened is a place that is found, and nothing changes. -/
theorem run_find_of_ready {at_ : Location} {e : Entry} (hr : h.files.Ready m.cwd p at_ e)
    (root : Path) : (find m root p).run h = (.ok ⟨p, false⟩, h) := by
  rw [find, run_bind_of_run (run_touch_ok hr.openAppend)]
  rfl

/-- A place that has been found can be opened. -/
theorem find_ready {place : Placement} (hfind : (find m root p).run h = (.ok place, h')) :
    ∃ at_ e, h'.files.Ready m.cwd place.path at_ e := by
  have hsettles := (leads_of_run hfind _).mp (find_settles m root p h)
  cases hsettles with
  | beside ho => exact ⟨_, Files.openAppend_ready ho⟩
  | below _ ho => exact ⟨_, Files.openAppend_ready ho⟩

/-- Looking for a place for a path comes to the same from one host as from another: the path leads
to the same, and so does the place that is found. -/
structure SameRoom (m : Machine) (root p : Path) (h k : Host) : Prop where
  natural : ∀ purpose, k.files.locate m.cwd purpose p = h.files.locate m.cwd purpose p
  found : ((find m root p).run k).1 = ((find m root p).run h).1
  place : ∀ place h' k', (find m root p).run h = (.ok place, h') →
    (find m root p).run k = (.ok place, k') →
    k'.files.locate m.cwd .creation place.path = h'.files.locate m.cwd .creation place.path

/-- There is the same room where nothing tells the hosts apart. -/
theorem SameRoom.of_alike {k : Host} (halike : Host.Alike (fun _ _ _ => False) h k)
    (root p : Path) : SameRoom m root p h k where
  natural purpose := Files.locate_eq_of_alike halike.files m.cwd purpose p
  found := (agree_find m root p halike).1
  place place h' k' hh hk := by
    have hsame := (agree_find m root p halike).2
    rw [hh, hk] at hsame
    exact Files.locate_eq_of_alike hsame.files m.cwd .creation place.path

end Placement

namespace CompilationUnit

/-- A unit with a copy is a header when it was one. -/
theorem isHeader_withCopyAt (u : CompilationUnit) (place : Placement) :
    (u.withCopyAt place).isHeader = u.isHeader := by
  unfold withCopyAt
  split <;> rfl

/-- A unit with a copy is scanned when it was. -/
theorem scanned_withCopyAt (u : CompilationUnit) (place : Placement) :
    (u.withCopyAt place).scanned = u.scanned := by
  unfold withCopyAt
  split <;> rfl

/-- A unit whose copy stands where it was meant to stand is one with a copy. -/
theorem withCopyAt_beside {u : CompilationUnit} {p : Path} (hcopied : u.copied = true) :
    u.withCopyAt ⟨p, false⟩ = u := by
  rw [withCopyAt, if_neg Bool.false_ne_true, ← hcopied]

end CompilationUnit

namespace Scan

open Source CompilationUnit

variable {m : Machine} {cfg : Config} {u : CompilationUnit} {h h₁ : Host} {content : Bytes}

/-- A copy that is written where a place was found for it: whether that goes well is a matter of
what stands there, and so is what stands there then. -/
theorem writeCopy_ready {place : Placement} {at_ : Location} {e : Entry}
    (hneeds : needsCopy content = true) (hsource : u.isHeader = false)
    (hfind : (Placement.find m cfg.cacheRoot u.copy).run h = (.ok place, h₁))
    (hr : h₁.files.Ready m.cwd place.path at_ e) :
    Leads (writeCopy m cfg content u) h fun r h' =>
      r = ((e.emptied.taking (copyOf u.path content)).mapError (.write place.path),
        u.withCopyAt place) ∧
      h'.files.Ready m.cwd place.path at_ (e.emptied.extended (copyOf u.path content)) := by
  have hcopy : (u.withCopyAt place).copy = place.path := (withCopyAt_placed hfind).1
  obtain ⟨fs, hcreate, hemptied⟩ := hr.create
  have hopen : (u.openCopy m cfg).run h =
      ((.ok at_, u.withCopyAt place), { h₁ with files := fs }) := by
    have hcreated : (Host.create m (u.withCopyAt place).copy).run h₁ =
        (.ok at_, { h₁ with files := fs }) := by
      rw [hcopy]
      exact run_change_ok (r := (at_, fs)) hcreate
    rw [openCopy, hsource, if_neg Bool.false_ne_true, run_bind_of_run hfind]
    dsimp only
    rw [run_bind_of_run hcreated]
    rfl
  unfold writeCopy
  rw [hneeds, Bool.not_true, if_neg Bool.false_ne_true, leads_bind, leads_of_run hopen]
  dsimp only
  rw [leads_bind, leads_note, path_withCopyAt, hcopy]
  generalize hnoted : Host.noted _ _ = h₂
  have hemptied : h₂.files.Ready m.cwd place.path at_ e.emptied := hnoted ▸ hemptied
  refine Leads.bind (Files.Ready.append (h := h₂) hemptied _) fun r h₃ happended => ?_
  obtain ⟨rfl, hwritten⟩ := happended
  exact ⟨rfl, hwritten⟩

/-- Without a place for the copy the writing fails, and the unit stays as it is. -/
theorem writeCopy_unplaced {cause : PlacementError} (hneeds : needsCopy content = true)
    (hsource : u.isHeader = false)
    (hfind : ((Placement.find m cfg.cacheRoot u.copy).run h).1 = .error cause) :
    Leads (writeCopy m cfg content u) h fun r _ => r = (.error (.unit (.location cause)), u) := by
  obtain ⟨r, h₁, hrun⟩ := exists_run (Placement.find m cfg.cacheRoot u.copy) h
  rw [hrun] at hfind
  obtain rfl : r = .error cause := hfind
  have hopen : (u.openCopy m cfg).run h = ((.error (.location cause), u), h₁) := by
    rw [openCopy, hsource, if_neg Bool.false_ne_true, run_bind_of_run hrun]
    rfl
  unfold writeCopy
  rw [hneeds, Bool.not_true, if_neg Bool.false_ne_true, leads_bind, leads_of_run hopen]
  rfl

/-- How the writing of the copy that a file's content calls for goes, from a host, for a unit: what
comes of it, the unit and the host that are left. -/
inductive Writes (m : Machine) (cfg : Config) (content : Bytes) (u : CompilationUnit) (h : Host) :
    Except ScanError Unit → CompilationUnit → Host → Prop where
  | idle {r : Except ScanError Unit}
      (hrun : ∀ k, (writeCopy m cfg content u).run k = ((r, u), k)) : Writes m cfg content u h r u h
  | unplaced {cause : PlacementError} {h₁ : Host} (hneeds : needsCopy content = true)
      (hsource : u.isHeader = false)
      (hfind : ((Placement.find m cfg.cacheRoot u.copy).run h).1 = .error cause) :
    Writes m cfg content u h (.error (.unit (.location cause))) u h₁
  | placed {place : Placement} {at_ : Location} {e : Entry} {h₁ h₂ : Host}
      (hneeds : needsCopy content = true) (hsource : u.isHeader = false)
      (hfind : (Placement.find m cfg.cacheRoot u.copy).run h = (.ok place, h₁))
      (hready : h₁.files.Ready m.cwd place.path at_ e)
      (hwritten : h₂.files.Ready m.cwd place.path at_
        (e.emptied.extended (copyOf u.path content))) :
    Writes m cfg content u h
      ((e.emptied.taking (copyOf u.path content)).mapError (.write place.path))
      (u.withCopyAt place) h₂

/-- The writing of a copy goes in one of these ways. -/
theorem writeCopy_writes (content : Bytes) (u : CompilationUnit) (h : Host) :
    Leads (writeCopy m cfg content u) h fun r h' => Writes m cfg content u h r.1 r.2 h' := by
  cases hneeds : needsCopy content with
  | false =>
    have hrun := run_writeCopy_of_not_needed hneeds m cfg u
    rw [leads_of_run (hrun h)]
    exact .idle hrun
  | true =>
    cases hkind : u.kind with
    | header =>
      have hrun := run_writeCopy_header hneeds hkind m cfg
      rw [leads_of_run (hrun h)]
      exact .idle hrun
    | source =>
      have hsource : u.isHeader = false := by rw [isHeader, hkind]; rfl
      obtain ⟨r, h₁, hfind⟩ := exists_run (Placement.find m cfg.cacheRoot u.copy) h
      cases r with
      | error cause =>
        have hnone := congrArg Prod.fst hfind
        refine (writeCopy_unplaced hneeds hsource hnone).mono fun r h₂ hr => ?_
        obtain rfl := hr
        exact .unplaced hneeds hsource hnone
      | ok place =>
        obtain ⟨at_, e, hready⟩ := Placement.find_ready hfind
        refine (writeCopy_ready hneeds hsource hfind hready).mono fun r h₂ hr => ?_
        obtain ⟨rfl, hwritten⟩ := hr
        exact .placed hneeds hsource hfind hready hwritten

/-- Writing a copy leaves the flags in front, and the mark of the unit. -/
theorem Writes.grows {u₁ : CompilationUnit} {r : Except ScanError Unit}
    (hw : Writes m cfg content u h r u₁ h₁) : u.Grows u₁ ∧ u₁.scanned = u.scanned := by
  cases hw with
  | placed => exact ⟨grows_withCopyAt u _, scanned_withCopyAt u _⟩
  | _ => exact ⟨.refl u, rfl⟩

/-- Whether a scan has failed for want of a place for the copy. -/
def Unplaced {α : Type} (r : Except ScanError α) : Prop :=
  ∃ cause, r = .error (.unit (.location cause))

/-- It is the writing of the copy that fails for want of a place. -/
theorem unplaced_map {α β : Type} {r : Except ScanError α} (f : α → β) :
    Unplaced (r.map f) ↔ Unplaced r := by
  cases r with
  | error e => simp only [Unplaced, Except.map, Except.error.injEq]
  | ok a => simp [Unplaced, Except.map]

/-- A copy that has been written where it stands may be written again: the unit stays as it is, and
so does the copy. -/
theorem Writes.again {v u₁ : CompilationUnit} {k₀ k₁ : Host} {r : Except ScanError Unit}
    (hw : Writes m cfg content v k₀ r u₁ h₁)
    (hcopy : ∀ purpose, k₁.files.locate m.cwd purpose u₁.copy =
      h₁.files.locate m.cwd purpose u₁.copy)
    (hplace : ∀ cause, r = .error (.unit (.location cause)) →
      ((Placement.find m cfg.cacheRoot u₁.copy).run k₁).1 = .error cause) :
    Leads (writeCopy m cfg content u₁) k₁ fun r' h₂ => r' = (r, u₁) ∧
      (¬ Unplaced r → h₂.files.find m.cwd u₁.copy = h₁.files.find m.cwd u₁.copy) := by
  have hfound : k₁.files.find m.cwd u₁.copy = h₁.files.find m.cwd u₁.copy := by
    rw [Files.find, Files.find, hcopy]
  cases hw with
  | idle hrun =>
    rw [leads_of_run (hrun k₁)]
    exact ⟨rfl, fun _ => hfound⟩
  | @unplaced cause _ hneeds hsource hfind =>
    refine (writeCopy_unplaced hneeds hsource (hplace cause rfl)).mono fun r' h₂ hr' => ⟨hr', ?_⟩
    exact fun hplaced => (hplaced ⟨cause, rfl⟩).elim
  | @placed place at_ e _ _ hneeds hsource hfind hready hwritten =>
    -- The copy is found where it stands, and what is there is emptied once more.
    have hat : (v.withCopyAt place).copy = place.path := (withCopyAt_placed hfind).1
    have hsource' : (v.withCopyAt place).isHeader = false := by
      rw [isHeader_withCopyAt, hsource]
    have hready' : k₁.files.Ready m.cwd (v.withCopyAt place).copy at_
        (e.emptied.extended (copyOf v.path content)) := by
      rw [hat] at hcopy ⊢
      exact hwritten.of_locate (hcopy .creation)
    have hagain := Placement.run_find_of_ready hready' cfg.cacheRoot
    have hsame : (v.withCopyAt place).withCopyAt ⟨(v.withCopyAt place).copy, false⟩ =
        v.withCopyAt place := withCopyAt_beside (copied_withCopyAt v place)
    refine (writeCopy_ready hneeds hsource' hagain hready').mono fun r' h₂ hr' => ?_
    rw [Entry.emptied_extended, path_withCopyAt, hsame, hat] at hr'
    refine ⟨hr'.1, fun _ => ?_⟩
    rw [hat, hr'.2.find, hwritten.find]

/-- A copy is written alike where there is the same room for it. -/
theorem Writes.alike {v u₁ : CompilationUnit} {k₀ k₁ : Host} {r : Except ScanError Unit}
    (hw : Writes m cfg content v k₀ r u₁ h₁)
    (hroom : Placement.SameRoom m cfg.cacheRoot v.copy k₀ k₁) :
    Leads (writeCopy m cfg content v) k₁ fun r' h₂ => r' = (r, u₁) ∧
      (¬ Unplaced r → h₂.files.find m.cwd u₁.copy = h₁.files.find m.cwd u₁.copy) := by
  have hfound : k₁.files.find m.cwd v.copy = k₀.files.find m.cwd v.copy := by
    rw [Files.find, Files.find, hroom.natural]
  cases hw with
  | idle hrun =>
    rw [leads_of_run (hrun k₁)]
    exact ⟨rfl, fun _ => hfound⟩
  | @unplaced cause _ hneeds hsource hfind =>
    refine (writeCopy_unplaced hneeds hsource (hroom.found.trans hfind)).mono
      fun r' h₂ hr' => ⟨hr', ?_⟩
    exact fun hplaced => (hplaced ⟨cause, rfl⟩).elim
  | @placed place at_ e _ _ hneeds hsource hfind hready hwritten =>
    obtain ⟨r, k₂, hother⟩ := exists_run (Placement.find m cfg.cacheRoot v.copy) k₁
    have hr := hroom.found
    rw [hother, hfind] at hr
    cases hr
    have hready' := hready.of_locate (hroom.place place _ _ hfind hother)
    have hat : (v.withCopyAt place).copy = place.path := (withCopyAt_placed hfind).1
    refine (writeCopy_ready hneeds hsource hother hready').mono fun r' h₂ hr' => ?_
    refine ⟨hr'.1, fun _ => ?_⟩
    rw [hat, hr'.2.find, hwritten.find]

/-- Some first answers make some first changes. -/
theorem prefix_changesFrom {index : Nat} {lines : List Bytes} {before answers : List (List Answer)}
    (path : Path) (h : before <+: answers) :
    changesFrom m path index lines before <+: changesFrom m path index lines answers := by
  induction lines generalizing index before answers with
  | nil => exact List.nil_prefix
  | cons line rest ih =>
    cases before with
    | nil => exact List.nil_prefix
    | cons as before =>
      obtain ⟨answers, rfl, hrest⟩ : ∃ more, answers = as :: more ∧ before <+: more := by
        obtain ⟨behind, rfl⟩ := h
        exact ⟨before ++ behind, rfl, List.prefix_append ..⟩
      exact List.cons_prefix_cons.mpr ⟨rfl, ih hrest⟩

end Scan

namespace CompilationUnit

open Source Scan

variable {m : Machine} {cfg : Config} {u u' v : CompilationUnit} {h h' k k' : Host}
  {content : Bytes}

/-! ## Flags that are pushed again -/

/-- Changes that a unit has seen, whatever came later, leave it as it is. -/
theorem flagged_of_grows {cs : List Change} (hg : (flagged u cs).Grows v) : flagged v cs = v := by
  rw [flagged, Flags.pushAll_pushed hg.flags, Flags.pushAll_pushed hg.privateFlags]

/-- Some first changes and then all of them come to all of them. -/
theorem flagged_again {some all : List Change} (u : CompilationUnit) (h : some <+: all) :
    flagged (flagged u some) all = flagged u all := by
  have hflags := Flags.pushAll_again u.flags (h.filterMap Change.flags?)
  have hprivate := Flags.pushAll_again u.privateFlags (h.filterMap Change.privateFlags?)
  simp only [flagged, hflags, hprivate]

/-- A unit that has all the flags is told nothing new. -/
theorem told_of_grows {t : Hearing} (hpath : v.path = u.path)
    (hg : (u.told m t).unit.Grows v) : v.told m t = { u.told m t with unit := v } := by
  rw [told_eq] at hg
  rw [told_eq, told_eq, hpath, flagged_of_grows hg]

/-- A unit that has the flags of some first answers is told what it would be told without them. -/
theorem told_again {before answers : List (List Answer)} (hbefore : before <+: answers)
    (m : Machine) (u : CompilationUnit) (content : Bytes) (signal? : Option Signal) :
    (u.told m ⟨content, signal?, before⟩).unit.told m ⟨content, none, answers⟩ =
      u.told m ⟨content, none, answers⟩ := by
  have hchanges : (changesFrom m u.path 0 (rawLines content) before).flatten <+:
      (changesFrom m u.path 0 (rawLines content) answers).flatten := by
    obtain ⟨more, hmore⟩ : changesFrom m u.path 0 (rawLines content) before <+:
      changesFrom m u.path 0 (rawLines content) answers := prefix_changesFrom u.path hbefore
    rw [← hmore, List.flatten_append]
    exact List.prefix_append ..
  have hunit : (u.told m ⟨content, signal?, before⟩).unit =
      flagged u (changesFrom m u.path 0 (rawLines content) before).flatten := by
    rw [told_eq]
    rfl
  rw [hunit, told_eq, told_eq]
  show Scan.mk (flagged (flagged u _) (changesFrom m u.path 0 (rawLines content) answers).flatten)
    _ _ = _
  rw [flagged_again u hchanges]
  rfl

/-! ## Scans that are made again -/

/-- The unit that a scan leaves has at least the flags that its reading was told of. -/
theorem told_grows {t : Hearing} (hheard : (hear m cfg u.path).run h = (.ok t, k)) :
    Leads (u.scan m cfg) h fun r _ => (u.told m t).unit.Grows r.2 := by
  refine (concludes_of_hear hheard).mono fun r h' hends => ?_
  obtain ⟨r, u'⟩ := r
  cases hends with
  | interrupted => exact .refl _
  | reported => exact ⟨List.prefix_rfl, List.prefix_rfl⟩
  | written _ _ hw =>
    obtain ⟨hgrows, -⟩ := ((leads_of_run hw _).mp (writeCopy_writes _ _ k)).grows
    exact ⟨hgrows.flags, hgrows.privateFlags⟩

/-- A scan of a unit that is told what an earlier scan of it was told comes to the same end and
leaves the unit as it is. -/
theorem Concludes.again {u₁ : CompilationUnit} {h₁ : Host} {t : Hearing}
    {r : Except ScanError (List CompilationUnit)} (hends : u.Concludes m cfg t h r u₁ h₁)
    (hr : u₁.Reads m cfg k t.content t.signal? { u.told m t with unit := u₁ } k')
    (hcopy : ∀ purpose, k'.files.locate m.cwd purpose u₁.copy =
      h₁.files.locate m.cwd purpose u₁.copy)
    (hplace : ∀ cause, r = .error (.unit (.location cause)) →
      ((Placement.find m cfg.cacheRoot u₁.copy).run k').1 = .error cause) :
    Leads (u₁.scan m cfg) k fun r' k₁ => r' = (r, u₁) ∧
      (¬ Unplaced r → k₁.files.find m.cwd u₁.copy = h₁.files.find m.cwd u₁.copy) := by
  have hfound : k'.files.find m.cwd u₁.copy = h₁.files.find m.cwd u₁.copy := by
    rw [Files.find, Files.find, hcopy]
  cases hends with
  | interrupted hsignal =>
    rw [hsignal] at hr
    rw [leads_of_run (run_scan_interrupted hr)]
    exact ⟨rfl, fun _ => hfound⟩
  | reported hquiet hne =>
    rw [hquiet] at hr
    rw [leads_of_run (run_scan_reported hr hne), ← path_told m u t]
    exact ⟨rfl, fun _ => hfound⟩
  | @written w _ _ hquiet hnil hw =>
    rw [hquiet] at hr
    have hwrites := (leads_of_run hw _).mp (writeCopy_writes _ _ h)
    -- The unit bears its mark by now, so that to mark it again is nothing.
    have hmarked : u₁.scanned = true := hwrites.grows.2
    have hagain := hwrites.again hcopy fun cause hcause => hplace cause (by
      rw [show w = _ from hcause]
      rfl)
    obtain ⟨⟨w', u₂⟩, k₁, hw'⟩ := exists_run (Scan.writeCopy m cfg t.content u₁) k'
    obtain ⟨hsame, hstays⟩ := (leads_of_run hw' _).mp hagain
    cases hsame
    rw [leads_of_run (run_scan_clean hr hnil (by rw [← hmarked]; exact hw'))]
    exact ⟨rfl, fun hplaced => hstays fun hunplaced => hplaced ((unplaced_map _).mpr hunplaced)⟩

/-- A scan that is told the same of another unit comes to the same end, and to the same unit. -/
theorem Concludes.alike {v u₁ : CompilationUnit} {h₁ : Host} {t : Hearing}
    {r : Except ScanError (List CompilationUnit)} (hends : u.Concludes m cfg t h r u₁ h₁)
    (hr : v.Reads m cfg k t.content t.signal? (u.told m t) k')
    (hroom : Placement.SameRoom m cfg.cacheRoot u.copy h k') :
    Leads (v.scan m cfg) k fun r' k₁ => r' = (r, u₁) ∧
      (¬ Unplaced r → k₁.files.find m.cwd u₁.copy = h₁.files.find m.cwd u₁.copy) := by
  have hcopy : (u.told m t).unit.copy = u.copy := congrArg (·.unit.copy) (told_eq m u t)
  have hpath : v.path = u.path := hr.flagged.follows.path.symm.trans (path_told m u t)
  have hfound : k'.files.find m.cwd u.copy = h.files.find m.cwd u.copy := by
    rw [Files.find, Files.find, hroom.natural]
  rw [← hcopy] at hfound hroom
  cases hends with
  | interrupted hsignal =>
    rw [hsignal] at hr
    rw [leads_of_run (run_scan_interrupted hr)]
    exact ⟨rfl, fun _ => hfound⟩
  | reported hquiet hne =>
    rw [hquiet] at hr
    rw [leads_of_run (run_scan_reported hr hne), hpath]
    exact ⟨rfl, fun _ => hfound⟩
  | @written w _ _ hquiet hnil hw =>
    rw [hquiet] at hr
    have hwrites := (leads_of_run hw _).mp (writeCopy_writes _ _ h)
    obtain ⟨⟨w', u₂⟩, k₁, hw'⟩ := exists_run
      (Scan.writeCopy m cfg t.content { (u.told m t).unit with scanned := true }) k'
    obtain ⟨hsame, hstays⟩ := (leads_of_run hw' _).mp (hwrites.alike hroom)
    cases hsame
    rw [leads_of_run (run_scan_clean hr hnil hw')]
    exact ⟨rfl, fun hplaced => hstays fun hunplaced => hplaced ((unplaced_map _).mpr hunplaced)⟩

/-- A scan of `v` from `k` comes to the end of a scan from `h` to `h'`: the same outcome and unit,
the same reports, and the copy where that has left it, unless it has found no place. -/
structure Repeats (m : Machine) (cfg : Config) (h h' k : Host) (v : CompilationUnit)
    (r : Except ScanError (List CompilationUnit)) (u' : CompilationUnit)
    (ds : List Source.Diagnostic) (k' : Host) : Prop where
  run : (v.scan m cfg).run k = ((r, u'), k')
  first : h'.reports = h.reports ++ ds
  second : k'.reports = k.reports ++ ds
  copy : ¬ Unplaced r → k'.files.find m.cwd u'.copy = h'.files.find m.cwd u'.copy

/-- What it means that a scan may be made again. -/
structure Restarts (m : Machine) (cfg : Config) (u : CompilationUnit) : Prop where
  /-- Where the reading of the file is told the same and the copy stands as it was left, a second
  scan comes to the end of the first one, and leaves the unit as it is. -/
  again : ∀ h k r u₁ h₁, (u.scan m cfg).run h = ((r, u₁), h₁) →
    ((hear m cfg u.path).run k).1 = ((hear m cfg u.path).run h).1 →
    (∀ purpose, ((hear m cfg u.path).run k).2.files.locate m.cwd purpose u₁.copy =
      h₁.files.locate m.cwd purpose u₁.copy) →
    (∀ cause, r = .error (.unit (.location cause)) →
      ((Placement.find m cfg.cacheRoot u₁.copy).run ((hear m cfg u.path).run k).2).1 =
        .error cause) →
    ∃ ds k₁, Repeats m cfg h h₁ k u₁ r u₁ ds k₁
  /-- A scan that an interrupt cuts short before some line has written nothing and marks nothing;
  where the next one is told what an undisturbed scan would have been told, it comes to the end of
  that one. -/
  interrupted : ∀ h₀ h k content answers before signal k₀ k' h₁ r₀ r₁ u₀ u₁ h₀',
    (u.scan m cfg).run h₀ = ((r₀, u₀), h₀') →
    (hear m cfg u.path).run h₀ = (.ok ⟨content, none, answers⟩, k₀) →
    (u.scan m cfg).run h = ((r₁, u₁), h₁) →
    ((hear m cfg u.path).run h).1 = .ok ⟨content, some signal, before⟩ →
    before <+: answers →
    (hear m cfg u.path).run k = (.ok ⟨content, none, answers⟩, k') →
    Placement.SameRoom m cfg.cacheRoot u.copy k₀ k' →
    r₁ = .error (.interrupted (.interrupted signal)) ∧
      Package.Asked m cfg.pkgConfig h.files h₁.files ∧ u₁.scanned = u.scanned ∧
      ∃ ds k₁, Repeats m cfg h₀ h₀' k u₁ r₀ u₀ ds k₁

/-- A scan may be made again, behind one that has come to its end and behind one that an interrupt
has cut short. -/
theorem scan_restarts (m : Machine) (cfg : Config) (u : CompilationUnit) : Restarts m cfg u := by
  refine
    { again := ?again
      interrupted := ?interrupted }
  case again =>
    intro h k r u₁ h₁ hscan hsame hcopy hplace
    have hpath : u₁.path = u.path := ((leads_of_run hscan _).mp (scan_proceeds u h)).path
    obtain ⟨t, h', hheard⟩ := exists_run (hear m cfg u.path) h
    obtain ⟨t', k', hagain⟩ := exists_run (hear m cfg u.path) k
    rw [hheard, hagain] at hsame
    rw [hagain] at hcopy hplace
    obtain rfl : t' = t := hsame
    rw [← hpath] at hagain
    cases t' with
    | error cause =>
      rw [run_scan_of_hear hheard] at hscan
      cases hscan
      have hreports := (leads_of_run hheard _).mp (reports_hear u.path h)
      have hreports' := (leads_of_run hagain _).mp (reports_hear u.path k)
      refine ⟨[], k', run_scan_of_hear hagain, ?_, ?_, fun _ => ?_⟩
      · rw [hreports, List.append_nil]
      · rw [hreports', List.append_nil]
      · rw [Files.find, Files.find, hcopy]
    | ok t =>
      have hends := (leads_of_run hscan _).mp (concludes_of_hear hheard)
      have htold := told_of_grows hpath ((leads_of_run hscan _).mp (told_grows hheard))
      have hr := reads_of_hear hagain
      have hreports := reports_of_hear hagain
      rw [htold] at hr hreports
      obtain ⟨⟨r', v⟩, k₁, hrun⟩ := exists_run (u₁.scan m cfg) k
      obtain ⟨hsame, hstays⟩ := (leads_of_run hrun _).mp (hends.again hr hcopy hplace)
      cases hsame
      refine ⟨(u.told m t).diagnostics, k₁, hrun, ?_, ?_, hstays⟩
      · exact (leads_of_run hscan _).mp (reports_of_hear hheard)
      · exact (leads_of_run hrun _).mp hreports
  case interrupted =>
    intro h₀ h k content answers before signal k₀ k' h₁ r₀ r₁ u₀ u₁ h₀' hscan hheard hcut hbroken
      hbefore hagain hroom
    obtain ⟨t, h', hbroken'⟩ := exists_run (hear m cfg u.path) h
    rw [hbroken'] at hbroken
    obtain rfl : t = _ := hbroken
    have hr₁ := reads_of_hear hbroken'
    rw [run_scan_interrupted hr₁] at hcut
    cases hcut
    have hpath := path_told m u ⟨content, some signal, before⟩
    have hends := (leads_of_run hscan _).mp (concludes_of_hear hheard)
    have htold := told_again hbefore m u content (some signal)
    have hr := reads_of_hear (hpath.symm ▸ hagain)
    have hreports := reports_of_hear (hpath.symm ▸ hagain)
    rw [htold] at hr hreports
    obtain ⟨⟨r', v⟩, k₁, hrun⟩ :=
      exists_run ((u.told m ⟨content, some signal, before⟩).unit.scan m cfg) k
    obtain ⟨hsame, hstays⟩ := (leads_of_run hrun _).mp (hends.alike hr hroom)
    cases hsame
    refine ⟨rfl, hr₁.asked, congrArg (·.unit.scanned) (told_eq m u _),
      (u.told m ⟨content, none, answers⟩).diagnostics, k₁, hrun, ?_, ?_, hstays⟩
    · exact (leads_of_run hscan _).mp (reports_of_hear hheard)
    · exact (leads_of_run hrun _).mp hreports

/-- The desk, where an interrupt arrives before the third line that is read. -/
def phone : Machine := { desk with arrivals := fun n => if n = 2 then [.interrupt] else [] }

/-- A script for the system, with flags of both kinds. -/
def remoteText : Bytes :=
  Text.Utf8.encode "#!/usr/bin/env hbcxx\n//#! -lm\n//#! private: -DX\n"

/-- The host of that script, when the phone has rung. No copy can be put beside the script. -/
def remote : Host where
  files :=
    { entries := [
        (["w"], .directory), (["sys"], .directory), (["sys", "m.cpp"], .file remoteText false)] }
  signals := Signals.initial.blockInterrupts
  polls := 10

/-- The host before the phone rings. -/
def ringing : Host := { remote with polls := 0 }

/-- The unit for that script. -/
def remoteUnit : CompilationUnit := .ofPath phone remote .source ⟨"/sys/m.cpp"⟩

/-- A scan of a unit for that script. -/
def remoteRun (u : CompilationUnit) (h : Host) :
    (Except ScanError (List CompilationUnit) × CompilationUnit) × Host :=
  (u.scan phone { cacheRoot := ⟨"c"⟩ }).run h

/-- What the reading of that script is told. -/
def remoteHearing (h : Host) : Except IoError Hearing × Host :=
  (hear phone { cacheRoot := ⟨"c"⟩ } remoteUnit.path).run h

/-- The host behind the scan that the call has cut short, when the call is over. -/
def hungUp : Host :=
  { (remoteRun remoteUnit ringing).2 with polls := 10, signals := remote.signals }

/-- The copy of that script finds its place below the cache. A second scan leaves it there, and so
does one behind a scan that has been cut short before the last line. -/
theorem scan_restarts_remote :
    ∃ u h u₁ h₁, remoteRun remoteUnit remote = ((.ok [], u), h) ∧
      remoteRun remoteUnit ringing =
        ((.error (.interrupted (.interrupted .interrupt)), u₁), h₁) ∧
      u.copy = ⟨"c/sys/m-hbcxx-7.cpp"⟩ ∧ u.privateFlags = ["-DX", "-iquote/sys"] ∧
      u₁.flags = ["-lm"] ∧
      (∃ k, remoteRun u h = ((.ok [], u), k) ∧
        k.files.find phone.cwd u.copy = h.files.find phone.cwd u.copy) ∧
      (∃ k, remoteRun u₁ hungUp = ((.ok [], u), k) ∧
        k.files.find phone.cwd u.copy = h.files.find phone.cwd u.copy) := by
  have hclean : (remoteRun remoteUnit remote).1.1 = .ok [] := by decide +kernel
  have hcopy : (remoteRun remoteUnit remote).1.2.copy = ⟨"c/sys/m-hbcxx-7.cpp"⟩ := by
    decide +kernel
  have hflags : (remoteRun remoteUnit remote).1.2.privateFlags = ["-DX", "-iquote/sys"] := by
    decide +kernel
  have hfirst : (remoteRun remoteUnit ringing).1.2.flags = ["-lm"] := by decide +kernel
  -- What the three readings are told, and a fourth one behind the first scan.
  have hheard : (remoteHearing remote).1 =
      .ok ⟨remoteText, none, [[], [.nothing], [.nothing]]⟩ := by
    decide +kernel
  have hbroken : (remoteHearing ringing).1 =
      .ok ⟨remoteText, some .interrupt, [[], [.nothing]]⟩ := by decide +kernel
  have hagain : (remoteHearing hungUp).1 =
      .ok ⟨remoteText, none, [[], [.nothing], [.nothing]]⟩ := by decide +kernel
  have htwice : (remoteHearing (remoteRun remoteUnit remote).2).1 = (remoteHearing remote).1 := by
    decide +kernel
  have hstays : (remoteHearing (remoteRun remoteUnit remote).2).2.files =
      (remoteRun remoteUnit remote).2.files := by decide +kernel
  have hfiles : (remoteHearing hungUp).2.files = (remoteHearing remote).2.files := by
    decide +kernel
  have hsignals : (remoteHearing hungUp).2.signals = (remoteHearing remote).2.signals := by
    rfl
  have hpolls : (remoteHearing hungUp).2.polls = (remoteHearing remote).2.polls := by
    decide +kernel
  have halike : Host.Alike (fun _ _ _ => False) (remoteHearing remote).2 (remoteHearing hungUp).2 :=
    ⟨hfiles ▸ .refl _ _, hsignals, hpolls⟩
  have hrestarts := scan_restarts phone { cacheRoot := ⟨"c"⟩ } remoteUnit
  obtain ⟨⟨⟨r, u⟩, h⟩, hrun⟩ : ∃ x, remoteRun remoteUnit remote = x := ⟨_, rfl⟩
  obtain ⟨⟨⟨r₁, u₁⟩, h₁⟩, hcut⟩ : ∃ x, remoteRun remoteUnit ringing = x := ⟨_, rfl⟩
  obtain ⟨⟨t₀, k₀⟩, hrun₀⟩ : ∃ x, remoteHearing remote = x := ⟨_, rfl⟩
  obtain ⟨⟨t', k'⟩, hrun'⟩ : ∃ x, remoteHearing hungUp = x := ⟨_, rfl⟩
  rw [hrun] at hclean hcopy hflags htwice hstays
  rw [hcut] at hfirst
  rw [hrun₀] at hheard halike
  rw [hrun'] at hagain halike
  cases hclean
  cases hheard
  cases hagain
  have hplaced : ¬ Unplaced (Except.ok [] : Except ScanError (List CompilationUnit)) := by
    rintro ⟨cause, hcause⟩
    cases hcause
  obtain ⟨_, k, hagain'⟩ := hrestarts.again _ h _ _ _ hrun htwice
    (fun purpose => by
      show (remoteHearing h).2.files.locate _ _ _ = _
      rw [hstays]) (fun _ hcause => nomatch hcause)
  obtain ⟨rfl, -, -, _, k₂, hsecond⟩ := hrestarts.interrupted _ _ _ _ _ _ _ _ _ _ _ _ _ _ _ hrun
    hrun₀ hcut hbroken ⟨[[.nothing]], rfl⟩ hrun' (.of_alike halike ⟨"c"⟩ remoteUnit.copy)
  exact ⟨u, h, u₁, h₁, hrun, hcut, hcopy, hflags, hfirst, ⟨k, hagain'.run, hagain'.copy hplaced⟩,
    k₂, hsecond.run, hsecond.copy hplaced⟩

end CompilationUnit

end CxxScript

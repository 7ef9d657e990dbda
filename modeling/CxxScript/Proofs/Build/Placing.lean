import CxxScript.Build.Unit
import CxxScript.Proofs.Host.Leads

/-!
# The sites of derived files

A derived file that has found a place stands at one of two sites: beside its source, or at its
lexical location repeated below a root. Which one it is depends on the host, but the path is
determined by the site, `find_site`. How a search for a place ends is told by `Placement.Settles`,
and how a unit comes by its object or its executable by `Yields`, so that nothing else has to look
into them.
-/

set_option autoImplicit false

namespace CxxScript

open Host

namespace Files

/-- The files when the directory of a path has been made, as far as that can be done. -/
def withDirectory (fs : Files) (wd : WorkingDir) (p : Path) : Files :=
  match p.parent? with
  | some dir => (fs.makeDirectories wd dir).2
  | none => fs

/-- Making the directory of a path only adds files. -/
theorem grows_withDirectory (fs : Files) (wd : WorkingDir) (p : Path) :
    Grows fs (fs.withDirectory wd p) := by
  unfold withDirectory
  split
  · exact grows_makeDirectories _ _ _
  · exact .refl fs

end Files

namespace Placement

variable {m : Machine} {root p : Path} {h h' : Host}

/-- A path that can be opened is touched. -/
theorem run_touch_ok {at_ : Location} {fs : Files}
    (ho : h.files.openAppend m.cwd p = .ok (at_, fs)) :
    (touch m p).run h = (true, { h with files := fs }) := by
  have hrun : (Host.openAppend m p).run h = (.ok at_, { h with files := fs }) :=
    run_change_ok (r := (at_, fs)) ho
  rw [touch, run_bind_of_run hrun]
  rfl

/-- A path that cannot be opened is left alone. -/
theorem run_touch_error {cause : IoError} (ho : h.files.openAppend m.cwd p = .error cause) :
    (touch m p).run h = (false, h) := by
  have hrun : (Host.openAppend m p).run h = (.error cause, h) := run_change_error ho
  rw [touch, run_bind_of_run hrun]
  rfl

/-- Whether the directory of a path can be made or not, nothing is told of it. -/
theorem run_makeParent (m : Machine) (p : Path) (h : Host) :
    (makeParent m p).run h = ((), { h with files := h.files.withDirectory m.cwd p }) := by
  unfold makeParent Files.withDirectory
  cases p.parent? <;> rfl

/-- Where a file stands that is repeated below a root. -/
def mirrored (m : Machine) (root p : Path) (h : Host) : Path :=
  Path.relocate root (h.files.workingLocation? m.cwd) p

/-- How a search for a place ends. -/
inductive Settles (m : Machine) (root p : Path) (h : Host) :
    Except PlacementError Placement → Host → Prop
  | beside {at_ : Location} {fs : Files} (ho : h.files.openAppend m.cwd p = .ok (at_, fs)) :
    Settles m root p h (.ok ⟨p, false⟩) { h with files := fs }
  | below {cause : IoError} {at_ : Location} {fs : Files}
    (hno : h.files.openAppend m.cwd p = .error cause)
    (ho : (h.files.withDirectory m.cwd (mirrored m root p h)).openAppend m.cwd
      (mirrored m root p h) = .ok (at_, fs)) :
    Settles m root p h (.ok ⟨mirrored m root p h, true⟩)
      ({ h with files := fs }.noted (.relocated p (mirrored m root p h)))
  | nowhere {cause cause' : IoError} (hno : h.files.openAppend m.cwd p = .error cause)
    (hno' : (h.files.withDirectory m.cwd (mirrored m root p h)).openAppend m.cwd
      (mirrored m root p h) = .error cause') :
    Settles m root p h (.error (.notWritable p (mirrored m root p h)))
      { h with files := h.files.withDirectory m.cwd (mirrored m root p h) }

/-- A search for a place ends in one of these ways. -/
theorem find_settles (m : Machine) (root p : Path) (h : Host) :
    Leads (find m root p) h (Settles m root p h) := by
  cases ho : h.files.openAppend m.cwd p with
  | ok opened =>
    have hrun : (find m root p).run h = (.ok ⟨p, false⟩, { h with files := opened.2 }) := by
      rw [find, run_bind_of_run (run_touch_ok ho)]
      rfl
    rw [leads_of_run hrun]
    exact .beside ho
  | error cause =>
    unfold find
    rw [leads_bind, leads_of_run (run_touch_error ho)]
    simp only [Bool.false_eq_true, if_false]
    rw [leads_bind, leads_get, leads_bind, leads_of_run (run_makeParent m _ h)]
    cases ho' : (h.files.withDirectory m.cwd (mirrored m root p h)).openAppend m.cwd
        (mirrored m root p h) with
    | ok opened =>
      have htouch : (touch m (mirrored m root p h)).run
          { h with files := h.files.withDirectory m.cwd (mirrored m root p h) } =
          (true, { h with files := opened.2 }) := run_touch_ok ho'
      have hleads := Settles.below ho ho'
      rw [leads_bind]
      exact (leads_of_run htouch _).mpr hleads
    | error cause' =>
      have htouch : (touch m (mirrored m root p h)).run
          { h with files := h.files.withDirectory m.cwd (mirrored m root p h) } =
          (false, { h with files := h.files.withDirectory m.cwd (mirrored m root p h) }) :=
        run_touch_error ho'
      rw [leads_bind]
      exact (leads_of_run htouch _).mpr (.nowhere ho ho')

end Placement

/-- Where a derived file stands: beside its source, or below a root, its location taken as it is
seen from the working location or, where there is none, from nowhere. -/
inductive Site where
  | beside
  | below (seen : Bool)
  deriving DecidableEq, Repr, Inhabited

namespace Site

/-- The location from which a path is seen. -/
def view? (m : Machine) (seen : Bool) : Option Location := if seen then some m.cwd else none

/-- The path at a site of a file that was meant to stand at `p`. -/
def path (m : Machine) (root : Path) : Site → Path → Path
  | beside, p => p
  | below seen, p => Path.relocate root (view? m seen) p

/-- The place that a site is. -/
def placement (m : Machine) (root : Path) (s : Site) (p : Path) : Placement :=
  { path := s.path m root p, relocated := s ≠ .beside }

end Site

/-- A file that is repeated below a root stands at a site. -/
theorem Placement.mirrored_site (m : Machine) (root p : Path) (h : Host) :
    ∃ seen, mirrored m root p h = (Site.below seen).path m root p := by
  unfold mirrored
  rcases Files.workingLocation?_eq_none_or h.files m.cwd with hw | hw
  · exact ⟨false, by rw [hw]; rfl⟩
  · exact ⟨true, by rw [hw]; rfl⟩

/-- A place that is found is a site. -/
theorem Placement.find_site (m : Machine) (root p : Path) (h : Host) :
    Leads (find m root p) h fun r _ => ∀ place, r = .ok place →
      ∃ s : Site, place = s.placement m root p := by
  refine (find_settles m root p h).mono fun r h' hsettles place hplace => ?_
  cases hsettles with
  | beside =>
    cases hplace
    exact ⟨.beside, rfl⟩
  | below =>
    cases hplace
    obtain ⟨seen, hseen⟩ := mirrored_site m root p h
    exact ⟨.below seen, by rw [hseen]; rfl⟩
  | nowhere => cases hplace

namespace CompilationUnit

/-- How a unit that is asked for a derived file answers. A header has none. A source gives the one
that it knows already; else it comes to have the one that was asked for, or one at a place that it
finds, where it would bear the extension. -/
inductive Yields (m : Machine) (cfg : Config) (u : CompilationUnit) (known asked : Option Path)
    (extension : String) (having : Path → CompilationUnit) (h : Host) :
    Except UnitError Path × CompilationUnit → Host → Prop where
  | header (hheader : u.isHeader = true) :
    Yields m cfg u known asked extension having h (.error (.headerNotCompiled u.path), u) h
  | known {p : Path} (hsource : u.isHeader = false) (hknown : known = some p) :
    Yields m cfg u known asked extension having h (.ok p, u) h
  | asked {p : Path} (hsource : u.isHeader = false) (hnone : known = none)
      (hasked : asked = some p) :
    Yields m cfg u known asked extension having h (.ok p, having p) h
  | missing {cause : PlacementError} {h' : Host} (hsource : u.isHeader = false)
      (hnone : known = none) (hunasked : asked = none)
      (hfind : (Placement.find m cfg.cacheRoot (u.copy.withExtension extension)).run h =
        (.error cause, h')) :
    Yields m cfg u known asked extension having h (.error (.location cause), u) h'
  | found {place : Placement} {h' : Host} (hsource : u.isHeader = false) (hnone : known = none)
      (hunasked : asked = none)
      (hfind : (Placement.find m cfg.cacheRoot (u.copy.withExtension extension)).run h =
        (.ok place, h')) :
    Yields m cfg u known asked extension having h (.ok place.path, having place.path) h'

/-- A unit that is asked for its object. Nobody asks for one at a path. -/
theorem object_yields (m : Machine) (cfg : Config) (u : CompilationUnit) (h : Host) :
    Leads (u.object m cfg) h
      (u.Yields m cfg u.object? none "o" (fun p => { u with object? := some p }) h) := by
  unfold object
  split
  · next hheader => exact .header hheader
  next hsource =>
  have hsource : u.isHeader = false := Bool.not_eq_true _ ▸ hsource
  split
  · next hknown => exact .known hsource hknown
  · next hnone =>
    obtain ⟨r, h', hfind⟩ :=
      exists_run (Placement.find m cfg.cacheRoot (u.copy.withExtension "o")) h
    rw [leads_bind, leads_of_run hfind]
    cases r with
    | error cause => exact .missing hsource hnone rfl hfind
    | ok place => exact .found hsource hnone rfl hfind

/-- A unit that is asked for its executable. -/
theorem executable_yields (m : Machine) (cfg : Config) (u : CompilationUnit) (h : Host) :
    Leads (u.executable m cfg) h (u.Yields m cfg u.executable? cfg.executable ""
      (fun p => { u with executable? := some p }) h) := by
  unfold executable
  split
  · next hheader => exact .header hheader
  next hsource =>
  have hsource : u.isHeader = false := Bool.not_eq_true _ ▸ hsource
  split
  · next hknown => exact .known hsource hknown
  · next hnone hasked => exact .asked hsource hnone hasked
  · next hnone hunasked =>
    obtain ⟨r, h', hfind⟩ :=
      exists_run (Placement.find m cfg.cacheRoot (u.copy.withExtension "")) h
    rw [leads_bind, leads_of_run hfind]
    cases r with
    | error cause => exact .missing hsource hnone hunasked hfind
    | ok place => exact .found hsource hnone hunasked hfind

end CompilationUnit

end CxxScript

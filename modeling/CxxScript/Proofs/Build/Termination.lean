import CxxScript.Proofs.Build.Order
import CxxScript.Proofs.Host.Counting

/-!
# A collection comes to an end

The list of units may grow while it is gone through, and the paths in it may get longer and longer.
But a file that is visited has been read, so the text of its path is bounded, and while files are
only added a path has at most three keys; no key joins twice. So a run of steps is no longer than
the first list together with three units for each spelling, `Steps.length_le`, and the loop never
stops for want of steps, `run_ends`. What each visit does to the files the whole run does,
`Steps.through`, whichever relation between hosts is asked about.
-/

set_option autoImplicit false

namespace CxxScript.Discovery

open Host

variable {m : Machine} {cfg : Config}

/-! ## What the visits do to the host -/

/-- A relation between hosts that a collection keeps as long as the units that it goes through are
of a kind. -/
structure VisitFrame (m : Machine) (cfg : Config) (P : CompilationUnit → Prop)
    (R : Host → Host → Prop) : Prop where
  still : ∀ {h h' : Host}, h'.files = h.files → R h h'
  trans : ∀ {a b c : Host}, R a b → R b c → R a c
  visit : ∀ {v : Visit}, v.Runs m cfg → P v.unit → R v.start v.final
  made : ∀ {v : Visit}, v.Runs m cfg → ∀ f ∈ v.found, P f

/-- How a relation goes from a state to a later host, with the visits on the way in order. -/
structure Through (R : Host → Host → Prop) (s : State) (vs : List Visit) (h' : Host) : Prop where
  through : R s.host h'
  starts : ∀ v ∈ vs, R s.host v.start ∧ R v.start h'
  ordered : vs.Pairwise fun w v => R w.start v.start

section Relation

variable {P : CompilationUnit → Prop} {R : Host → Host → Prop} {s s' : State} {vs : List Visit}

/-- What a collection keeps goes through a run of steps, and the units to do stay of the kind. -/
theorem Steps.through (F : VisitFrame m cfg P R) {n : Nat} (h : Steps m cfg n s vs s')
    (hs : ∀ u ∈ s.todo, P u) : Through R s vs s'.host ∧ ∀ u ∈ s'.todo, P u := by
  induction h with
  | refl s => exact ⟨⟨F.still rfl, by simp, .nil⟩, hs⟩
  | @head n a b c vs vs' hstep _ ih =>
    cases hstep with
    | pass hu =>
      obtain ⟨hrest, htodo⟩ := ih (List.forall_mem_cons.mp hs).2
      exact ⟨⟨hrest.through, hrest.starts, hrest.ordered⟩, htodo⟩
    | @visit done todo joined ts ts' h v hu hv ho htake =>
      obtain ⟨hunit, hold⟩ := List.forall_mem_cons.mp hs
      obtain ⟨hjoined, -, hfiles, -⟩ :=
        (leads_of_run htake _).mp (takeIn_outcome _ v.result v.found ts v.final)
      have hjoined : joined = fresh _ v.found := hjoined
      obtain ⟨hrest, htodo⟩ := ih <| by
        intro u hu
        rcases List.mem_append.mp hu with hu | hu
        · exact hold u hu
        · rw [hjoined] at hu
          exact F.made hv u (mem_of_mem_fresh hu)
      have hfirst : R v.start h := F.trans (F.visit hv hunit) (F.still hfiles)
      have hthrough := F.trans hfirst hrest.through
      refine ⟨⟨hthrough, ?_, List.Pairwise.cons (fun w hw => ?_) hrest.ordered⟩, htodo⟩
      · intro w hw
        rcases List.mem_cons.mp hw with rfl | hw
        · exact ⟨F.still rfl, hthrough⟩
        · exact ⟨F.trans hfirst (hrest.starts w hw).1, (hrest.starts w hw).2⟩
      · exact F.trans hfirst (hrest.starts w hw).1

/-- What a collection keeps goes through it until it ends. -/
theorem Ends.through (F : VisitFrame m cfg P R)
    {r : Except Failure Unit × List CompilationUnit × Toolset} {h' : Host}
    (h : Ends m cfg s vs r h') (hs : ∀ u ∈ s.todo, P u) : Through R s vs h' := by
  cases h with
  | finished hsteps => exact (hsteps.through F hs).1
  | @failed n vs done todo ts v e hsteps hu hv ho =>
    obtain ⟨hg, htodo⟩ := hsteps.through F hs
    have hlast : R v.start v.final := F.visit hv (htodo v.unit List.mem_cons_self)
    refine ⟨F.trans hg.through hlast, ?_, ?_⟩
    · intro w hw
      rcases List.mem_append.mp hw with hw | hw
      · exact ⟨(hg.starts w hw).1, F.trans (hg.starts w hw).2 hlast⟩
      · rw [List.mem_singleton] at hw
        subst hw
        exact ⟨hg.through, hlast⟩
    · refine List.pairwise_append.mpr ⟨hg.ordered, List.pairwise_singleton _ _, ?_⟩
      intro w hw x hx
      rw [List.mem_singleton] at hx
      subst hx
      exact (hg.starts w hw).2

end Relation

/-- In a collection the files grow. -/
theorem frame_grows (hq : Package.KeepsFiles m cfg.pkgConfig) :
    VisitFrame m cfg (fun _ => True) fun h h' => h.files.Grows h'.files where
  still hfiles := hfiles ▸ .refl _
  trans := .trans
  visit hv _ := (hv.scanned (trivialFrame m cfg).toFrame (growthFrame hq)).host
  made _ _ _ := trivial

/-- How the files grow from a state to a later host, with the visits on the way in order. -/
abbrev Growth : State → List Visit → Host → Prop := Through fun h h' => h.files.Grows h'.files

/-- In a run of steps the files grow. -/
theorem Steps.growth (hq : Package.KeepsFiles m cfg.pkgConfig) {n : Nat} {s s' : State}
    {vs : List Visit} (h : Steps m cfg n s vs s') : Growth s vs s'.host :=
  (h.through (frame_grows hq) fun _ _ => trivial).1

/-- Until a collection ends the files grow. -/
theorem Ends.growth (hq : Package.KeepsFiles m cfg.pkgConfig) {s : State} {vs : List Visit}
    {r : Except Failure Unit × List CompilationUnit × Toolset} {h' : Host}
    (h : Ends m cfg s vs r h') : Growth s vs h' :=
  h.through (frame_grows hq) fun _ _ => trivial

/-- The units that a visit gives back have the keys of their paths in the files it began with. -/
theorem Visit.Runs.identity_found (hq : Package.KeepsFiles m cfg.pkgConfig) {v : Visit}
    (hv : v.Runs m cfg) :
    ∀ f ∈ v.found, f.identity = v.start.files.identity m.cwd f.path := by
  intro f hf
  obtain ⟨h', kind, p, hfiles, rfl⟩ := hv.made (stillFrame hq) f hf
  have hsame : h'.files = v.start.files := hfiles
  show h'.files.identity m.cwd p.normalize = v.start.files.identity m.cwd p.normalize
  rw [hsame]

/-! ## The number of steps -/

/-- A run of steps goes through the units that were there and, for each spelling, through three
more. -/
theorem Steps.length_le (hq : Package.KeepsFiles m cfg.pkgConfig) {n : Nat}
    {units : List CompilationUnit} {ts : Toolset} {h : Host} {vs : List Visit} {s' : State}
    (hsteps : Steps m cfg n ⟨[], units, ts, h⟩ vs s') :
    n ≤ units.length + 3 * spellings := by
  have hp := hsteps.progress
  have hg := hsteps.growth hq
  let late : List Visit := vs.drop (unscanned units).length
  obtain ⟨rest, hjoined⟩ : ∃ rest, fresh units (vs.flatMap Visit.found) =
      late.map (·.unit) ++ rest := by
    have hdrop := congrArg (List.drop (unscanned units).length) hp.seen
    rw [List.drop_append, List.drop_left, ← List.map_drop] at hdrop
    exact ⟨_, hdrop.symm⟩
  have hnodup : (late.map (·.unit.identity)).Nodup := by
    have hfresh := nodup_fresh units (vs.flatMap Visit.found)
    rw [hjoined, List.map_append, List.map_map] at hfresh
    exact (List.nodup_append.mp hfresh).1
  have hkeys : (late.map (·.unit.identity)).length ≤ 3 * spellings := by
    refine @Files.length_keys_le s'.host.files m.cwd _ hnodup fun key hkey => ?_
    obtain ⟨v, hv, rfl⟩ := List.mem_map.mp hkey
    obtain ⟨hruns, hok⟩ := hp.runs v (List.mem_of_mem_drop hv)
    obtain ⟨content, hread⟩ := hruns.read hok
    obtain ⟨loc, e, hlocate, -⟩ := Files.read_eq_ok hread
    have hfound : v.unit ∈ fresh units (vs.flatMap Visit.found) := by
      rw [hjoined]
      exact List.mem_append_left _ (List.mem_map_of_mem hv)
    obtain ⟨w, hw, hmention⟩ := List.mem_flatMap.mp (mem_of_mem_fresh hfound)
    have hid := (hp.runs w hw).1.identity_found hq v.unit hmention
    refine ⟨v.unit.path, (Files.locate_eq_ok hlocate).2.2.1, ?_⟩
    rw [hid]
    exact Files.identity_mem_keys (hg.starts w hw).2 m.cwd v.unit.path
  have hlate : late.length = vs.length - (unscanned units).length := List.length_drop
  have hsplit : (scanned units).length + (unscanned units).length = units.length :=
    (List.length_eq_length_filter_add _).symm
  have hcount := hp.steps
  rw [List.length_map] at hkeys
  dsimp only at hcount
  omega

/-- A collection ends by itself, however many units join on the way. -/
theorem run_ends (hq : Package.KeepsFiles m cfg.pkgConfig) (units : List CompilationUnit)
    (ts : Toolset) (h : Host) : ∃ vs r h', (run m cfg units ts).run h = (r, h') ∧
      Ends m cfg ⟨[], units, ts, h⟩ vs r h' := by
  rcases collect_run m cfg (budget units) [] units ts h with hends | ⟨vs, s, -, hsteps, -⟩
  · exact hends
  · exfalso
    have hle := hsteps.length_le hq
    rw [budget] at hle
    omega

end CxxScript.Discovery

import CxxScript.Proofs.Build.Tracing

/-!
# What lasts while a unit is used

Whatever is asked of a unit, in whatever order and with whatever success, some things hold from its
making on, `operations_last`: a header has nothing that is derived from it, the compiler is given
the file itself just as long as there is no copy, a copy that has been moved stays below the cache
root and its unit looks for headers beside the file, flags only join at the end, what has been named
once is named so again until it is removed, and to remove something twice is to remove it once. A
unit that keeps a mark of its own for whether there is an object, `Marked`, goes the same way, and
its mark is always right.
-/

set_option autoImplicit false

namespace CxxScript.CompilationUnit

open Host

variable {m : Machine} {cfg : Config} {u u' v : CompilationUnit} {ds : List Deed} {h h' k : Host}

/-! ## The copy and the file -/

/-- The compiler is given the file itself just as long as there is no copy. -/
theorem processedPath_of_named {q : Path} (hpath : u.path = q.normalize) (hn : u.Named m.pid) :
    (u.copied = false → u.processedPath = u.path) ∧
      (u.copied = true → u.processedPath = u.copy ∧
        u.processedPath.components ≠ u.path.components) := by
  refine ⟨fun hnone => ?_, fun hcopied => ?_⟩
  · rw [processedPath, if_neg (by rw [hnone]; exact Bool.false_ne_true)]
  · rw [processedPath, if_pos hcopied, hpath]
    rw [Named, hpath] at hn
    exact ⟨rfl, hn.ne_file⟩

/-! ## A copy that has been moved -/

/-- What is named after a file stands below the cache root at any site but that beside the file. -/
theorem NamedAfter.below {pid : Nat} {file p : Path} {art : Artifact}
    (hn : NamedAfter pid file art p) (hcwd : Path.IsPlace m.cwd) (root : Path) (seen : Bool) :
    root.components <+: ((Site.below seen).path m root p).components := by
  obtain ⟨lead, htext, hlead, hname⟩ := hn.endsIn
  have hview : Path.IsPlace ((Site.view? m seen).getD []) := by
    cases seen with
    | true => exact hcwd
    | false => exact fun name hname => by cases hname
  exact Path.prefix_components_relocate root hview htext hlead hname

/-- A place that is found is where the copy stands already or below the cache root, and below it
where the copy is there already. -/
theorem Finds.below {d : Deed} {place : Placement} (hf : u.Finds m cfg d .copy place)
    (hn : u.Named m.pid) (hcwd : Path.IsPlace m.cwd)
    (hthere : place.relocated = true ∨ cfg.cacheRoot.components <+: u.copy.components) :
    cfg.cacheRoot.components <+: place.path.components := by
  obtain ⟨s, rfl⟩ := hf.site
  cases s with
  | beside => exact hthere.resolve_left Bool.false_ne_true
  | below seen => exact NamedAfter.below hn hcwd cfg.cacheRoot seen

/-- A copy below the cache root stays there. -/
theorem after_below (hn : u.Named m.pid) (hcwd : Path.IsPlace m.cwd)
    (hthere : cfg.cacheRoot.components <+: u.copy.components) (ds : List Deed) :
    cfg.cacheRoot.components <+: (after m cfg u ds).copy.components := by
  induction ds using List.reverseRecOn with
  | nil => exact hthere
  | append_singleton ds d ih =>
    have hstep := d.proceeds m cfg (after m cfg u ds)
    rw [after_concat]
    by_cases hfinds : ∃ place, (after m cfg u ds).Finds m cfg d .copy place
    · obtain ⟨place, hfinds⟩ := hfinds
      rw [(hstep.placed place hfinds).2.1]
      exact hfinds.below (named_after hn ds) hcwd (.inr ih)
    · rw [(hstep.unplaced fun place hf => hfinds ⟨place, hf⟩).1]
      exact ih

/-- From the moment at which a copy is moved it stands below the cache root, and the directory of
the file is among the private flags. -/
theorem after_relocated {d : Deed} {place : Placement} (hn : u.Named m.pid)
    (hcwd : Path.IsPlace m.cwd) (hf : u.Finds m cfg d .copy place)
    (hmoved : place.relocated = true) (later : List Deed) :
    cfg.cacheRoot.components <+: (after m cfg u (d :: later)).copy.components ∧
      u.quoteFlag ∈ (after m cfg u (d :: later)).privateFlags := by
  obtain ⟨-, hcopy, hquote⟩ := (d.proceeds m cfg u).placed place hf
  have hthere : cfg.cacheRoot.components <+: (d.run m cfg u).1.copy.components := by
    rw [hcopy]
    exact hf.below hn hcwd (.inl hmoved)
  refine ⟨after_below (named_after hn [d]) hcwd hthere later, ?_⟩
  exact (after_grows (d.run m cfg u).1 later).privateFlags.subset (hquote hmoved)

/-! ## What has been named -/

/-- A source with an object names it. -/
theorem run_object_of_some (hsource : u.isHeader = false) {p : Path} (hp : u.object? = some p)
    (h : Host) : (u.object m cfg).run h = ((.ok p, u), h) := by
  rw [object, hsource, hp]
  rfl

/-- A unit has the object that it names. -/
theorem object_named {p : Path} (hrun : (u.object m cfg).run h = ((.ok p, v), h')) :
    v.isHeader = false ∧ v.object? = some p := by
  cases (leads_of_run hrun _).mp (object_yields m cfg u h) with
  | known hsource hknown => exact ⟨hsource, hknown⟩
  | asked _ _ hasked => cases hasked
  | found hsource => exact ⟨hsource, rfl⟩

/-- A source with an executable names it. -/
theorem run_executable_of_some (hsource : u.isHeader = false) {p : Path}
    (hp : u.executable? = some p) (h : Host) : (u.executable m cfg).run h = ((.ok p, u), h) := by
  rw [executable, hsource, hp]
  rfl

/-- A unit has the executable that it names. -/
theorem executable_named {p : Path} (hrun : (u.executable m cfg).run h = ((.ok p, v), h')) :
    v.isHeader = false ∧ v.executable? = some p := by
  cases (leads_of_run hrun _).mp (executable_yields m cfg u h) with
  | known hsource hknown => exact ⟨hsource, hknown⟩
  | asked hsource => exact ⟨hsource, rfl⟩
  | found hsource => exact ⟨hsource, rfl⟩

/-- Whether some operations leave a unit its object. -/
def KeepsObject (cfg : Config) (ds : List Deed) : Prop :=
  cfg.saveTemps = true ∨ ∀ d ∈ ds, d.op ≠ .cleanup

/-- Whether some operations leave a unit its executable. -/
def KeepsExecutable (cfg : Config) (ds : List Deed) : Prop :=
  cfg.saveTemps = true ∨ cfg.buildsOnly = true ∨ ∀ d ∈ ds, d.op ≠ .removeExecutable

/-- The unit has its object until it is removed. -/
theorem after_object? {p : Path} (hp : u.object? = some p) (hkeeps : KeepsObject cfg ds) :
    (after m cfg u ds).object? = some p := by
  induction ds generalizing u with
  | nil => exact hp
  | cons d rest ih =>
    refine ih ?_ (hkeeps.imp id fun hall x hx => hall x (List.mem_cons_of_mem _ hx))
    refine ((d.proceeds m cfg u).objectKept p hp).resolve_right ?_
    rintro ⟨hop, hsave⟩
    rcases hkeeps with hkeeps | hall
    · exact Bool.false_ne_true (hsave.symm.trans hkeeps)
    · exact hall d List.mem_cons_self hop

/-- The unit has its executable until it is removed. -/
theorem after_executable? {p : Path} (hp : u.executable? = some p)
    (hkeeps : KeepsExecutable cfg ds) : (after m cfg u ds).executable? = some p := by
  induction ds generalizing u with
  | nil => exact hp
  | cons d rest ih =>
    refine ih ?_ (hkeeps.imp id fun h => h.imp id fun hall x hx =>
      hall x (List.mem_cons_of_mem _ hx))
    refine ((d.proceeds m cfg u).executableKept p hp).resolve_right ?_
    rintro ⟨hop, hsave, hbuild⟩
    rcases hkeeps with hkeeps | hkeeps | hall
    · exact Bool.false_ne_true (hsave.symm.trans hkeeps)
    · exact Bool.false_ne_true (hbuild.symm.trans hkeeps)
    · exact hall d List.mem_cons_self hop

/-! ## Removing twice -/

/-- Where there is neither a copy nor an object, to remove them changes nothing. -/
theorem run_cleanup_of_none (hcopied : u.copied = false) (hobject : u.object? = none) (h : Host) :
    (u.cleanup m cfg).run h = (u, h) := by
  have hsame : { u with copied := false, object? := none } = u := by
    rw [← hcopied, ← hobject]
  unfold cleanup
  rw [hcopied, hobject]
  split
  · rfl
  · exact congrArg (·, h) hsame

/-- Where there is no executable, to remove it changes nothing. -/
theorem run_removeExecutable_of_none (hnone : u.executable? = none) (h : Host) :
    (u.removeExecutable m cfg).run h = (u, h) := by
  have hsame : { u with executable? := none } = u := by rw [← hnone]
  unfold removeExecutable
  rw [hnone]
  split
  · rfl
  · exact congrArg (·, h) hsame

/-- To remove the copy and the object once more changes nothing, and neither does it where temporary
files are kept. -/
theorem run_cleanup_again (hrun : (u.cleanup m cfg).run h = (v, h')) (k : Host) :
    (v.cleanup m cfg).run k = (v, k) ∧ (cfg.saveTemps = true → v = u ∧ h' = h) := by
  have hv : v = u.cleaned cfg := (leads_of_run hrun _).mp (cleanup_result u h)
  cases hsave : cfg.saveTemps with
  | true =>
    have hkept : ∀ (w : CompilationUnit) k, (w.cleanup m cfg).run k = (w, k) := by
      intro w k
      rw [cleanup, hsave]
      rfl
    rw [hkept] at hrun
    cases hrun
    exact ⟨hkept u k, fun _ => ⟨rfl, rfl⟩⟩
  | false =>
    rw [cleaned_of_discarding hsave] at hv
    subst hv
    exact ⟨run_cleanup_of_none rfl rfl k, fun hkept => by cases hkept⟩

/-- To remove the executable once more changes nothing, and neither does it where temporary files
are kept. -/
theorem run_removeExecutable_again (hrun : (u.removeExecutable m cfg).run h = (v, h')) (k : Host) :
    (v.removeExecutable m cfg).run k = (v, k) ∧ (cfg.saveTemps = true → v = u ∧ h' = h) := by
  have hv : v = u.withoutExecutable cfg := (leads_of_run hrun _).mp (removeExecutable_result u h)
  cases hkeep : cfg.saveTemps || cfg.buildsOnly with
  | true =>
    have hkept : ∀ (w : CompilationUnit) k, (w.removeExecutable m cfg).run k = (w, k) := by
      intro w k
      rw [removeExecutable, hkeep]
      rfl
    rw [hkept] at hrun
    cases hrun
    exact ⟨hkept u k, fun _ => ⟨rfl, rfl⟩⟩
  | false =>
    rw [withoutExecutable, hkeep, if_neg Bool.false_ne_true] at hv
    subst hv
    refine ⟨run_removeExecutable_of_none rfl k, fun hsave => ?_⟩
    rw [(Bool.or_eq_false_iff.mp hkeep).1] at hsave
    cases hsave

/-! ## Headers -/

/-- A header has nothing that is derived from it. -/
theorem after_header (hheader : u.isHeader = true) (hcopied : u.copied = false)
    (hobject : u.object? = none) (hexecutable : u.executable? = none) (ds : List Deed) :
    (after m cfg u ds).copied = false ∧ (after m cfg u ds).object? = none ∧
      (after m cfg u ds).executable? = none := by
  have hnothing : ∀ art p, ¬ u.Found m cfg ds art p := by
    intro art p hf
    exact Bool.false_ne_true (hf.source.symm.trans hheader)
  refine ⟨?_, ?_, ?_⟩
  · rw [← Bool.not_eq_true]
    exact fun h => hnothing .copy _ (copy_found hcopied h)
  · rw [Option.eq_none_iff_forall_ne_some]
    exact fun p hp => hnothing .object p (object_found hobject hp)
  · rw [Option.eq_none_iff_forall_ne_some]
    intro p hp
    rcases executable_found hexecutable hp with ⟨hsource, -⟩ | hf
    · exact Bool.false_ne_true (hsource.symm.trans hheader)
    · exact hnothing .executable p hf

/-- A scan of a header changes no file but by the package queries that it asks. -/
theorem scan_header (hheader : u.isHeader = true) (h : Host) :
    Leads (u.scan m cfg) h fun _ h' => Package.Asked m cfg.pkgConfig h.files h'.files := by
  refine (scan_ends u h).mono fun r h' hends => ?_
  cases hends with
  | read hasked => exact hasked
  | @written _ s _ _ _ _ hr _ hneeds hw =>
    have hkind : ({ s.unit with scanned := true } : CompilationUnit).kind = .header :=
      hr.flagged.follows.kind.trans (eq_of_beq hheader)
    rw [run_writeCopy_header hneeds hkind] at hw
    have hhost := congrArg Prod.snd hw
    dsimp only at hhost
    rw [← hhost]
    exact hr.asked

/-- No operation on a header changes a file, but a scan may ask for packages. -/
theorem run_header (hheader : u.isHeader = true) (hcopied : u.copied = false)
    (hobject : u.object? = none) (hexecutable : u.executable? = none) (d : Deed) :
    Package.Asked m cfg.pkgConfig d.host.files (d.run m cfg u).2.files ∧
      (d.op ≠ .scan → (d.run m cfg u).2 = d.host) := by
  have hstill : (d.run m cfg u).2 = d.host →
      Package.Asked m cfg.pkgConfig d.host.files (d.run m cfg u).2.files ∧
        (d.op ≠ .scan → (d.run m cfg u).2 = d.host) := fun hsame => by
    rw [hsame]
    exact ⟨.refl, fun _ => rfl⟩
  have hrefused : ∀ {α : Type} {x : StateM Host (α × CompilationUnit)} {r h}, x.run h = (r, h) →
      ((do return (← x).2 : StateM Host CompilationUnit).run h).2 = h := fun hx => by
    rw [run_bind_of_run hx]
    rfl
  have hopen : ∀ h, (u.openCopy m cfg).run h = ((.error (.headerNotCompiled u.path), u), h) := by
    intro h
    rw [openCopy, hheader]
    rfl
  obtain ⟨op, h⟩ := d
  cases op with
  | scan => exact ⟨scan_header hheader h, fun hop => (hop rfl).elim⟩
  | pushFlags run => exact hstill rfl
  | pushPrivateFlags run => exact hstill rfl
  | pushFlagText text => exact hstill rfl
  | pushPrivateFlagText text => exact hstill rfl
  | openCopy => exact hstill (hrefused (hopen h))
  | writeCopy content =>
    have hwrite : (u.writeCopy m cfg content).run h =
        ((.error (.headerNotCompiled u.path), u), h) := by
      rw [writeCopy, run_bind_of_run (hopen h)]
      rfl
    exact hstill (hrefused hwrite)
  | object =>
    have hobject : (u.object m cfg).run h = ((.error (.headerNotCompiled u.path), u), h) := by
      rw [object, hheader]
      rfl
    exact hstill (hrefused hobject)
  | executable =>
    have hexecutable : (u.executable m cfg).run h =
        ((.error (.headerNotCompiled u.path), u), h) := by
      rw [executable, hheader]
      rfl
    exact hstill (hrefused hexecutable)
  | cleanup => exact hstill (congrArg Prod.snd (run_cleanup_of_none hcopied hobject h))
  | removeExecutable =>
    exact hstill (congrArg Prod.snd (run_removeExecutable_of_none hexecutable h))

/-! ## A mark for the object -/

/-- A unit with a mark of its own for whether there is an object. -/
structure Marked where
  unit : CompilationUnit
  hasObject : Bool

namespace Marked

/-- Ask for the object, and mark that there is one when it has been found. -/
def object (m : Machine) (cfg : Config) (x : Marked) : StateM Host Marked := do
  if x.unit.isHeader then return x
  match x.unit.object? with
  | some _ => return x
  | none =>
    match ← Placement.find m cfg.cacheRoot (x.unit.copy.withExtension "o") with
    | .error _ => return x
    | .ok place =>
      return { unit := { x.unit with object? := some place.path }, hasObject := true }

/-- Remove the copy, and the object if there is a mark for one. -/
def cleanup (m : Machine) (cfg : Config) (x : Marked) : StateM Host Marked := do
  if cfg.saveTemps then return x
  if x.unit.copied then removeFile m x.unit.copy
  if x.hasObject then
    if let some object := x.unit.object? then removeFile m object
    return { unit := { x.unit with copied := false, object? := none }, hasObject := false }
  return { x with unit := { x.unit with copied := false } }

/-- Ask something of a marked unit. Only the two operations on the object look at the mark. -/
def perform (m : Machine) (cfg : Config) (x : Marked) : Op → StateM Host Marked
  | .object => x.object m cfg
  | .cleanup => x.cleanup m cfg
  | op => do return { x with unit := ← op.perform m cfg x.unit }

/-- The marked unit after some operations. -/
def after (m : Machine) (cfg : Config) (x : Marked) (ds : List Deed) : Marked :=
  ds.foldl (fun x d => ((x.perform m cfg d.op).run d.host).1) x

end Marked

/-- The unit with the mark that is right. -/
def marked (u : CompilationUnit) : Marked := ⟨u, u.object?.isSome⟩

/-- Two runs that begin with the same operation go the same way if what follows does. -/
theorem run_bind_map {α β γ : Type} (x : StateM Host α) (f : α → StateM Host β)
    (g : α → StateM Host γ) (φ : γ × Host → β × Host)
    (hfg : ∀ a k, (f a).run k = φ ((g a).run k)) (h : Host) :
    (x >>= f).run h = φ ((x >>= g).run h) := hfg _ _

/-- A mark that is right is right when the object has been asked for. -/
theorem run_marked_object (u : CompilationUnit) (h : Host) :
    (u.marked.object m cfg).run h =
      (((u.object m cfg).run h).1.2.marked, ((u.object m cfg).run h).2) := by
  obtain ⟨path, identity, kind, copy, copied, object?, executable?, flags, privateFlags,
    scanned⟩ := u
  unfold Marked.object object
  cases kind with
  | header => rfl
  | source =>
    cases object? with
    | some object => rfl
    | none =>
      refine run_bind_map (Placement.find m cfg.cacheRoot (copy.withExtension "o")) _ _
        (fun r : (Except UnitError Path × CompilationUnit) × Host => (r.1.2.marked, r.2))
        (fun r k => ?_) h
      cases r <;> rfl

/-- A mark that is right is right when the object has been removed. -/
theorem run_marked_cleanup (u : CompilationUnit) (h : Host) :
    (u.marked.cleanup m cfg).run h =
      (((u.cleanup m cfg).run h).1.marked, ((u.cleanup m cfg).run h).2) := by
  obtain ⟨path, identity, kind, copy, copied, object?, executable?, flags, privateFlags,
    scanned⟩ := u
  unfold Marked.cleanup cleanup
  cases cfg.saveTemps with
  | true => rfl
  | false =>
    generalize removeFile m = remove
    cases copied <;> cases object? <;> rfl

/-- A mark that is right is right after any operation, and the mark changes nothing else. -/
theorem run_marked (op : Op) (u : CompilationUnit) (h : Host) :
    (u.marked.perform m cfg op).run h =
      (((op.perform m cfg u).run h).1.marked, ((op.perform m cfg u).run h).2) := by
  -- Any other operation leaves the object as it was, so the mark may stay.
  have hother : (∀ place, ¬ u.Finds m cfg ⟨op, h⟩ .object place) → op ≠ .cleanup →
      ((op.perform m cfg u).run h).1.object? = u.object? := by
    intro hnone hop
    have hstep := Deed.proceeds m cfg u ⟨op, h⟩
    refine Option.ext fun p => ⟨fun hp => ?_, fun hp => ?_⟩
    · exact (hstep.objectFound p hp).resolve_right fun ⟨place, hfinds, _⟩ => hnone place hfinds
    · exact (hstep.objectKept p hp).resolve_right fun ⟨hcleanup, _⟩ => hop hcleanup
  have hmark : ((op.perform m cfg u).run h).1.object? = u.object? →
      (((op.perform m cfg u).run h).1.marked, ((op.perform m cfg u).run h).2) =
        (⟨((op.perform m cfg u).run h).1, u.object?.isSome⟩, ((op.perform m cfg u).run h).2) := by
    intro hsame
    rw [marked, hsame]
  cases op with
  | object => exact run_marked_object u h
  | cleanup => exact run_marked_cleanup u h
  | _ =>
    rw [hmark (hother (fun place hfinds => by cases hfinds) (by simp))]
    rfl

/-- A mark that is right is right after any operations. -/
theorem after_marked (u : CompilationUnit) (ds : List Deed) :
    u.marked.after m cfg ds = (after m cfg u ds).marked := by
  induction ds generalizing u with
  | nil => rfl
  | cons d rest ih =>
    have hstep : ((u.marked.perform m cfg d.op).run d.host).1 = (d.run m cfg u).1.marked :=
      congrArg Prod.fst (run_marked d.op u d.host)
    show Marked.after m cfg ((u.marked.perform m cfg d.op).run d.host).1 rest = _
    rw [hstep]
    exact ih _

/-! ## The whole -/

/-- What holds of a unit `u` that some operations have made of the new unit `u₀` for a path. -/
structure Lasts (m : Machine) (cfg : Config) (h₀ : Host) (kind : UnitKind) (q : Path)
    (ds : List Deed) (u₀ u : CompilationUnit) : Prop where
  /-- The unit stays for the same file. -/
  file : u.path = q.normalize ∧ u.identity = h₀.identity m q.normalize ∧ u.kind = kind
  /-- A header has no copy, no object and no executable, and whatever more is asked of it changes no
  file, but for the packages that a scan asks for. -/
  header : kind = .header → u.copied = false ∧ u.object? = none ∧ u.executable? = none ∧
    ∀ d : Deed, Package.Asked m cfg.pkgConfig d.host.files (d.run m cfg u).2.files ∧
      (d.op ≠ .scan → (d.run m cfg u).2 = d.host)
  /-- A mark of its own for whether there is an object is right. -/
  marked : (⟨u₀, false⟩ : Marked).after m cfg ds = ⟨u, u.object?.isSome⟩
  /-- The compiler is given the file itself as long as there is no copy, and then the copy, which
  has another name. -/
  processed : (u.copied = false → u.processedPath = u.path) ∧
    (u.copied = true → u.processedPath = u.copy ∧
      u.processedPath.components ≠ u.path.components)
  /-- Once the copy has been moved it stands below the cache root, and the directory of the file is
  among the private flags. -/
  moved : ∀ earlier d later place, ds = earlier ++ d :: later →
    (after m cfg u₀ earlier).Finds m cfg d .copy place → place.relocated = true →
    cfg.cacheRoot.components <+: u.copy.components ∧ u₀.quoteFlag ∈ u.privateFlags
  /-- The flags only grow at their end. -/
  grows : ∀ later, u.Grows (after m cfg u later)
  /-- An object that has been named is named again until it is removed. -/
  object : ∀ h v h' p, (u.object m cfg).run h = ((.ok p, v), h') → ∀ later, KeepsObject cfg later →
    ∀ k, ((after m cfg v later).object m cfg).run k = ((.ok p, after m cfg v later), k)
  /-- An executable that has been named is named again until it is removed. -/
  executable : ∀ h v h' p, (u.executable m cfg).run h = ((.ok p, v), h') →
    ∀ later, KeepsExecutable cfg later →
    ∀ k, ((after m cfg v later).executable m cfg).run k = ((.ok p, after m cfg v later), k)
  /-- To clean up once more changes nothing, and neither does it where temporary files are kept. -/
  cleanup : ∀ h v h', (u.cleanup m cfg).run h = (v, h') →
    (∀ k, (v.cleanup m cfg).run k = (v, k)) ∧ (cfg.saveTemps = true → v = u ∧ h' = h)
  /-- To remove the executable once more changes nothing, and neither does it where temporary files
  are kept. -/
  removal : ∀ h v h', (u.removeExecutable m cfg).run h = (v, h') →
    (∀ k, (v.removeExecutable m cfg).run k = (v, k)) ∧ (cfg.saveTemps = true → v = u ∧ h' = h)

/-- Whatever operations are asked of a unit, on whatever hosts, all this holds of what they make of
it. -/
theorem operations_last (m : Machine) (cfg : Config) (h₀ : Host) (kind : UnitKind) (q : Path)
    (ds : List Deed) (u₀ u : CompilationUnit) (hcwd : Path.IsPlace m.cwd)
    (hnew : u₀ = ofPath m h₀ kind q) (hrun : u = after m cfg u₀ ds) :
    Lasts m cfg h₀ kind q ds u₀ u := by
  have hsame := @after_same m cfg u₀ ds
  have hnamed : u₀.Named m.pid := hnew ▸ named_ofPath m h₀ kind q
  have hnothing : u₀.copied = false ∧ u₀.object? = none ∧ u₀.executable? = none := by
    rw [hnew]
    exact ⟨rfl, rfl, rfl⟩
  have hfor : u₀.path = q.normalize ∧ u₀.identity = h₀.identity m q.normalize ∧ u₀.kind = kind := by
    rw [hnew]
    exact ⟨rfl, rfl, rfl⟩
  rw [← hrun] at hsame
  have hpath : u.path = q.normalize := hsame.1.trans hfor.1
  have hkind : u.kind = kind := hsame.2.2.trans hfor.2.2
  refine
    { file := ⟨hpath, hsame.2.1.trans hfor.2.1, hkind⟩
      header := ?header
      marked := ?marked
      processed := ?processed
      moved := ?moved
      grows := fun later => after_grows u later
      object := ?object
      executable := ?executable
      cleanup := fun h v h' hv =>
        ⟨fun k => (run_cleanup_again hv k).1, (run_cleanup_again hv h').2⟩
      removal := fun h v h' hv =>
        ⟨fun k => (run_removeExecutable_again hv k).1, (run_removeExecutable_again hv h').2⟩ }
  case header =>
    intro hheader
    have hheader₀ : u₀.isHeader = true := by rw [isHeader, hfor.2.2, hheader]; rfl
    have hheader' : u.isHeader = true := by rw [isHeader, hkind, hheader]; rfl
    obtain ⟨hcopied, hobject, hexecutable⟩ : u.copied = false ∧ u.object? = none ∧
        u.executable? = none := by
      rw [hrun]
      exact after_header hheader₀ hnothing.1 hnothing.2.1 hnothing.2.2 ds
    exact ⟨hcopied, hobject, hexecutable, run_header hheader' hcopied hobject hexecutable⟩
  case marked =>
    have hmark : (⟨u₀, false⟩ : Marked) = u₀.marked := by rw [marked, hnothing.2.1]; rfl
    rw [hmark, after_marked, ← hrun]
    rfl
  case processed =>
    have hn := @named_after m cfg u₀ hnamed ds
    rw [← hrun] at hn
    exact processedPath_of_named hpath hn
  case moved =>
    rintro earlier d later place rfl hfinds hmoved
    have hn := @named_after m cfg u₀ hnamed earlier
    have hquote : (after m cfg u₀ earlier).quoteFlag = u₀.quoteFlag := by
      rw [quoteFlag, quoteFlag, directoryText, directoryText, (after_same u₀ earlier).1]
    have hmoved := after_relocated hn hcwd hfinds hmoved later
    rwa [← after_append, ← hrun, hquote] at hmoved
  case object =>
    intro h v h' p hv later hkeeps k
    obtain ⟨hsource, hp⟩ := object_named hv
    refine run_object_of_some ?_ (after_object? hp hkeeps) k
    rw [isHeader, (after_same v later).2.2]
    exact hsource
  case executable =>
    intro h v h' p hv later hkeeps k
    obtain ⟨hsource, hp⟩ := executable_named hv
    refine run_executable_of_some ?_ (after_executable? hp hkeeps) k
    rw [isHeader, (after_same v later).2.2]
    exact hsource

/-- The unit for a source in a directory that is not there. -/
def strayUnit : CompilationUnit := .ofPath desk memo .source ⟨"gone/a.cpp"⟩

/-- Its copy is moved below the cache root, and stays there when it has been removed. -/
theorem operations_last_stray :
    Path.IsPlace desk.cwd ∧
      strayUnit.Finds desk { cacheRoot := ⟨"c"⟩ } ⟨.openCopy, memo⟩ .copy
        ⟨⟨"c/w/gone/a-hbcxx-7.cpp"⟩, true⟩ ∧
      [Path.Component.name "c"] <+: (after desk { cacheRoot := ⟨"c"⟩ } strayUnit
        [⟨.openCopy, memo⟩, ⟨.cleanup, memo⟩]).copy.components ∧
      "-iquotegone" ∈ (after desk { cacheRoot := ⟨"c"⟩ } strayUnit
        [⟨.openCopy, memo⟩, ⟨.cleanup, memo⟩]).privateFlags := by
  have hcwd : Path.IsPlace desk.cwd := by
    intro name hname
    rw [List.mem_singleton.mp hname]
    decide
  have hfinds : strayUnit.Finds desk { cacheRoot := ⟨"c"⟩ } ⟨.openCopy, memo⟩ .copy
      ⟨⟨"c/w/gone/a-hbcxx-7.cpp"⟩, true⟩ := by
    obtain ⟨r, h', hfind⟩ := exists_run (Placement.find desk ⟨"c"⟩ strayUnit.copy) memo
    have hplace : ((Placement.find desk ⟨"c"⟩ strayUnit.copy).run memo).1 =
        .ok ⟨⟨"c/w/gone/a-hbcxx-7.cpp"⟩, true⟩ := by
      decide +kernel
    rw [hfind] at hplace
    cases hplace
    exact .opened rfl (.inl rfl) hfind
  have hlasts := operations_last desk { cacheRoot := ⟨"c"⟩ } memo .source ⟨"gone/a.cpp"⟩
    [⟨.openCopy, memo⟩, ⟨.cleanup, memo⟩] strayUnit _ hcwd rfl rfl
  obtain ⟨hbelow, hquote⟩ :=
    hlasts.moved [] ⟨.openCopy, memo⟩ [⟨.cleanup, memo⟩] _ rfl hfinds rfl
  have hroot : (⟨"c"⟩ : Path).components = [.name "c"] := by decide +kernel
  have hflag : strayUnit.quoteFlag = "-iquotegone" := by decide +kernel
  rw [hroot] at hbelow
  rw [hflag] at hquote
  exact ⟨hcwd, hfinds, hbelow, hquote⟩

end CxxScript.CompilationUnit

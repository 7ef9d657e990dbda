import CxxScript.Proofs.Build.Clearing
import CxxScript.Proofs.Build.Copying
import CxxScript.Proofs.Build.Making

/-!
# What can be asked of a unit

A unit is asked for one thing after the other, `Op`, in any order, and the host may be changed by
anyone between two operations: `after`. What one operation makes of a unit is told once,
`Deed.proceeds`: the unit stays for the same file, its flags grow at their end, and what it has come
to have it was given by the search for a place, `Finds`. What holds of every run follows from that
by induction on the operations.
-/

set_option autoImplicit false

namespace CxxScript

open Host

variable {m : Machine} {cfg : Config}

namespace CompilationUnit

/-! ## Operations -/

/-- What can be asked of a unit. -/
inductive Op where
  | scan
  | pushFlags (run : List String)
  | pushPrivateFlags (run : List String)
  | pushFlagText (text : String)
  | pushPrivateFlagText (text : String)
  | openCopy
  | writeCopy (content : Bytes)
  | object
  | executable
  | cleanup
  | removeExecutable

/-- Ask something of a unit. What is left of it does not depend on how that is answered. -/
def Op.perform (m : Machine) (cfg : Config) (u : CompilationUnit) : Op → StateM Host CompilationUnit
  | .scan => do return (← u.scan m cfg).2
  | .pushFlags run => return (u.pushFlags run).2
  | .pushPrivateFlags run => return (u.pushPrivateFlags run).2
  | .pushFlagText text => return (u.pushFlagText text).2
  | .pushPrivateFlagText text => return (u.pushPrivateFlagText text).2
  | .openCopy => do return (← u.openCopy m cfg).2
  | .writeCopy content => do return (← u.writeCopy m cfg content).2
  | .object => do return (← u.object m cfg).2
  | .executable => do return (← u.executable m cfg).2
  | .cleanup => u.cleanup m cfg
  | .removeExecutable => u.removeExecutable m cfg

/-- Whether an operation may look for a place for the copy. -/
def Op.opensCopy : Op → Bool
  | .scan | .openCopy | .writeCopy _ => true
  | _ => false

/-- An operation and the host on which it is begun. -/
structure Deed where
  op : Op
  host : Host

/-- The unit and the host after an operation. -/
def Deed.run (m : Machine) (cfg : Config) (u : CompilationUnit) (d : Deed) :
    CompilationUnit × Host := (d.op.perform m cfg u).run d.host

/-- The unit after some operations. -/
def after (m : Machine) (cfg : Config) (u : CompilationUnit) (ds : List Deed) : CompilationUnit :=
  ds.foldl (fun u d => (d.run m cfg u).1) u

/-- Some operations and then further ones. -/
theorem after_append (u : CompilationUnit) (ds later : List Deed) :
    after m cfg u (ds ++ later) = after m cfg (after m cfg u ds) later :=
  List.foldl_append

/-- Some operations and then another one. -/
theorem after_concat (u : CompilationUnit) (ds : List Deed) (d : Deed) :
    after m cfg u (ds ++ [d]) = (d.run m cfg (after m cfg u ds)).1 :=
  after_append u ds [d]

/-- Ask some things of a unit, one after the other on one host. -/
def performAll (m : Machine) (cfg : Config) :
    CompilationUnit → List Op → StateM Host CompilationUnit
  | u, [] => return u
  | u, op :: rest => do performAll m cfg (← op.perform m cfg u) rest

/-- What a unit may be given a place for. -/
inductive Artifact where
  | copy
  | object
  | executable

/-- An operation on a unit looks for a place for something that is derived from it, and finds one. A
scan does so when it has read the file and found nothing wrong with it. -/
inductive Finds (m : Machine) (cfg : Config) (u : CompilationUnit) :
    Deed → Artifact → Placement → Prop where
  | opened {op : Op} {h h' : Host} {place : Placement} (hsource : u.isHeader = false)
      (hop : op = .openCopy ∨ ∃ content, op = .writeCopy content)
      (hfind : (Placement.find m cfg.cacheRoot u.copy).run h = (.ok place, h')) :
    Finds m cfg u ⟨op, h⟩ .copy place
  | scanned {h h₁ h' : Host} {content : Bytes} {s : Scan} {place : Placement}
      (hsource : u.isHeader = false) (hreads : u.Reads m cfg h content none s h₁)
      (hnil : s.diagnostics = []) (hneeds : Source.needsCopy content = true)
      (hfind : (Placement.find m cfg.cacheRoot u.copy).run h₁ = (.ok place, h')) :
    Finds m cfg u ⟨.scan, h⟩ .copy place
  | object {h h' : Host} {place : Placement} (hsource : u.isHeader = false)
      (hnone : u.object? = none)
      (hfind : (Placement.find m cfg.cacheRoot (u.copy.withExtension "o")).run h =
        (.ok place, h')) : Finds m cfg u ⟨.object, h⟩ .object place
  | executable {h h' : Host} {place : Placement} (hsource : u.isHeader = false)
      (hnone : u.executable? = none) (hasked : cfg.executable = none)
      (hfind : (Placement.find m cfg.cacheRoot (u.copy.withExtension "")).run h =
        (.ok place, h')) : Finds m cfg u ⟨.executable, h⟩ .executable place

/-- No other operation looks for a place for the copy. -/
theorem not_finds_copy {u : CompilationUnit} {op : Op} (hop : op.opensCopy = false) (h : Host)
    (place : Placement) : ¬ u.Finds m cfg ⟨op, h⟩ .copy place := by
  intro hfinds
  cases hfinds with
  | opened _ hopens => rcases hopens with rfl | ⟨content, rfl⟩ <;> cases hop
  | scanned => cases hop

/-- The flag by which a compiler looks for headers beside the file of a unit. -/
def quoteFlag (u : CompilationUnit) : String := s!"-iquote{u.directoryText}"

/-! ## Flags that grow -/

/-- The flags of a unit have grown at their end, if at all. -/
structure Grows (u u' : CompilationUnit) : Prop where
  flags : u.flags <+: u'.flags
  privateFlags : u.privateFlags <+: u'.privateFlags

/-- The flags may stay as they are. -/
theorem Grows.refl (u : CompilationUnit) : u.Grows u := ⟨List.prefix_rfl, List.prefix_rfl⟩

/-- The unit may stay as it is. -/
theorem Grows.of_eq {u u' : CompilationUnit} (h : u' = u) : u.Grows u' := h ▸ .refl u

/-- Flags that have grown may grow further. -/
theorem Grows.trans {a b c : CompilationUnit} (h : a.Grows b) (h' : b.Grows c) : a.Grows c :=
  ⟨h.flags.trans h'.flags, h.privateFlags.trans h'.privateFlags⟩

/-- Flags are pushed at the end. -/
theorem grows_pushFlags (u : CompilationUnit) (run : List String) :
    u.Grows (u.pushFlags run).2 := ⟨Flags.prefix_pushUnique u.flags run, List.prefix_rfl⟩

/-- Private flags are pushed at the end. -/
theorem grows_pushPrivateFlags (u : CompilationUnit) (run : List String) :
    u.Grows (u.pushPrivateFlags run).2 :=
  ⟨List.prefix_rfl, Flags.prefix_pushUnique u.privateFlags run⟩

end CompilationUnit

namespace Scan

open CompilationUnit

/-- Following a directive pushes flags at the end, if any. -/
theorem apply_grows (position : Source.Position) (d : Source.Directive) (s : Scan) (h : Host) :
    Leads (s.apply m cfg position d) h fun s' _ => s.unit.Grows s'.unit := by
  unfold apply
  split
  · exact grows_pushFlags s.unit _
  · exact .refl s.unit
  · exact grows_pushFlags s.unit _
  · exact grows_pushPrivateFlags s.unit _
  · refine Leads.skip fun r h' => ?_
    cases r with
    | ok flags => exact grows_pushFlags s.unit _
    | error e => exact .refl s.unit
  · split
    · refine Leads.skip fun _ h' => ?_
      rw [leads_bind, leads_get]
      exact .of_eq (unit_refer s _)
    · exact .refl s.unit
  · exact .refl s.unit
  · exact .refl s.unit

/-- Following an include pushes flags at the end, if any. -/
theorem follow_grows (index : Nat) (i : Source.Include) (s : Scan) (h : Host) :
    Leads (s.follow m cfg index i) h fun s' _ => s.unit.Grows s'.unit := by
  unfold follow
  cases i with
  | beside target =>
    rw [leads_bind, leads_get]
    have hheader : (if h.isFile m (s.unit.path.resolveFrom target) then
        s.refer (.ofPath m h .header (s.unit.path.resolveFrom target)) else s).unit = s.unit := by
      split
      · exact unit_refer s _
      · rfl
    dsimp only
    split
    · exact .of_eq ((unit_refer _ _).trans hheader)
    · exact .of_eq hheader
  | system header =>
    dsimp only
    split
    · exact grows_pushFlags s.unit _
    · refine Leads.skip fun r h' => ?_
      cases r with
      | ok flags => exact grows_pushFlags s.unit _
      | error e => exact Leads.skip fun _ _ => .refl s.unit
    · exact .refl s.unit

/-- Reading lines pushes flags at the end, if any. -/
theorem readLines_grows (index : Nat) (lines : List Bytes) (s : Scan) (h : Host) :
    Leads (readLines m cfg index lines s) h fun r _ => s.unit.Grows r.2.unit := by
  induction lines generalizing index s h with
  | nil => exact .refl s.unit
  | cons line rest ih =>
    unfold readLines
    refine Leads.skip fun signal? h₁ => ?_
    cases signal? with
    | some signal => exact .refl s.unit
    | none =>
      have hline : Leads (s.readLine m cfg index (Source.readableLine line)) h₁ fun s' _ =>
          s.unit.Grows s'.unit :=
        readLine_leads (fun _ => .refl s.unit) (fun position d _ => apply_grows position d s h₁)
          fun i s' h' hs' => (follow_grows index i s' h').mono fun _ _ => hs'.trans
      exact Leads.bind hline fun s' h₂ hs' => (ih (index + 1) s' h₂).mono fun _ _ => hs'.trans

end Scan

namespace CompilationUnit

open Source

variable {u u' v : CompilationUnit} {d : Deed} {h h' : Host}

/-! ## One operation -/

/-- What an operation makes of a unit. The unit stays for the same file, and its flags grow at their
end. A copy that finds a place stands there, and where that is not beside the file the directory of
the file is among the private flags; without a place the copy stays where it was meant to stand, and
does not come into being. An object or an executable that the unit comes to know has been found or,
in the case of the executable, asked for, and the unit forgets it only when it is removed. -/
structure Proceeds (m : Machine) (cfg : Config) (u : CompilationUnit) (d : Deed)
    (u' : CompilationUnit) : Prop where
  path : u'.path = u.path
  identity : u'.identity = u.identity
  kind : u'.kind = u.kind
  grows : u.Grows u'
  placed : ∀ place, u.Finds m cfg d .copy place →
    u'.copied = true ∧ u'.copy = place.path ∧
      (place.relocated = true → u.quoteFlag ∈ u'.privateFlags)
  unplaced : (∀ place, ¬ u.Finds m cfg d .copy place) →
    u'.copy = u.copy ∧ (u'.copied = true → u.copied = true)
  objectFound : ∀ p, u'.object? = some p →
    u.object? = some p ∨ ∃ place, u.Finds m cfg d .object place ∧ place.path = p
  objectKept : ∀ p, u.object? = some p →
    u'.object? = some p ∨ (d.op = .cleanup ∧ cfg.saveTemps = false)
  executableFound : ∀ p, u'.executable? = some p →
    u.executable? = some p ∨ (u.isHeader = false ∧ cfg.executable = some p) ∨
      ∃ place, u.Finds m cfg d .executable place ∧ place.path = p
  executableKept : ∀ p, u.executable? = some p →
    u'.executable? = some p ∨
      (d.op = .removeExecutable ∧ cfg.saveTemps = false ∧ cfg.buildsOnly = false)

/-- An operation that leaves a unit what it was for, with the same object and executable, does what
operations do if it does so to the copy. -/
theorem Follows.proceeds (hf : u.Follows u') (hgrows : u.Grows u')
    (hplaced : ∀ place, u.Finds m cfg d .copy place →
      u'.copied = true ∧ u'.copy = place.path ∧
        (place.relocated = true → u.quoteFlag ∈ u'.privateFlags))
    (hunplaced : (∀ place, ¬ u.Finds m cfg d .copy place) →
      u'.copy = u.copy ∧ (u'.copied = true → u.copied = true)) : u.Proceeds m cfg d u' where
  path := hf.path
  identity := hf.identity
  kind := hf.kind
  grows := hgrows
  placed := hplaced
  unplaced := hunplaced
  objectFound _ hp := .inl (hf.object?.symm.trans hp)
  objectKept _ hp := .inl (hf.object?.trans hp)
  executableFound _ hp := .inl (hf.executable?.symm.trans hp)
  executableKept _ hp := .inl (hf.executable?.trans hp)

/-- An operation that finds no place for the copy and leaves all but the flags as it is. -/
theorem Flagged.proceeds (hf : u.Flagged u') (hgrows : u.Grows u')
    (hnone : ∀ place, ¬ u.Finds m cfg d .copy place) : u.Proceeds m cfg d u' :=
  hf.follows.proceeds hgrows (fun place hfinds => (hnone place hfinds).elim)
    fun _ => ⟨hf.copy, fun hcopied => hf.processedPath.1 ▸ hcopied⟩

/-- An operation that looks for no place for the copy and leaves all but the flags as it is. -/
theorem flagged_proceeds {op : Op} (hf : u.Flagged u') (hgrows : u.Grows u')
    (hop : op.opensCopy = false) : u.Proceeds m cfg ⟨op, h⟩ u' :=
  hf.proceeds hgrows (not_finds_copy hop h)

/-- What becomes of a unit whose copy is opened. -/
inductive Opens (m : Machine) (cfg : Config) (u : CompilationUnit) (h : Host) :
    CompilationUnit → Prop where
  | header (hheader : u.isHeader = true) : Opens m cfg u h u
  | missing {cause : PlacementError} {h' : Host}
      (hfind : (Placement.find m cfg.cacheRoot u.copy).run h = (.error cause, h')) :
    Opens m cfg u h u
  | placed {place : Placement} {h' : Host} (hsource : u.isHeader = false)
      (hfind : (Placement.find m cfg.cacheRoot u.copy).run h = (.ok place, h')) :
    Opens m cfg u h (u.withCopyAt place)

/-- To open the copy of a unit is to look for its place. -/
theorem openCopy_opens (u : CompilationUnit) (h : Host) :
    Leads (u.openCopy m cfg) h fun r _ => u.Opens m cfg h r.2 := by
  unfold openCopy
  split
  · next hheader => exact .header hheader
  · next hsource =>
    obtain ⟨r, h₁, hfind⟩ := exists_run (Placement.find m cfg.cacheRoot u.copy) h
    rw [leads_bind, leads_of_run hfind]
    cases r with
    | error cause => exact .missing hfind
    | ok place => exact Leads.skip fun _ _ => .placed (Bool.not_eq_true _ ▸ hsource) hfind

/-- To write the copy of a unit is to open it first. -/
theorem writeCopy_opens (content : Bytes) (u : CompilationUnit) (h : Host) :
    Leads (u.writeCopy m cfg content) h fun r _ => u.Opens m cfg h r.2 := by
  unfold writeCopy
  refine Leads.bind (openCopy_opens u h) fun r h₁ ho => ?_
  obtain ⟨r, u'⟩ := r
  cases r with
  | error cause => exact ho
  | ok at_ => exact Leads.skip fun _ _ => ho

/-- The copy that a scan writes is opened first. -/
theorem scanWriteCopy_opens {content : Bytes} (hneeds : needsCopy content = true)
    (u : CompilationUnit) (h : Host) :
    Leads (Scan.writeCopy m cfg content u) h fun r _ => u.Opens m cfg h r.2 := by
  unfold Scan.writeCopy
  rw [hneeds, Bool.not_true, if_neg Bool.false_ne_true]
  refine Leads.bind (openCopy_opens u h) fun r h₁ ho => ?_
  obtain ⟨r, u'⟩ := r
  cases r with
  | error cause => exact ho
  | ok at_ => exact Leads.skip fun _ _ => Leads.skip fun _ _ => ho

/-- A place that is found is where the copy is meant to stand, unless it is not beside the file. -/
theorem path_of_not_relocated {root p : Path} {place : Placement}
    (hfind : (Placement.find m root p).run h = (.ok place, h'))
    (hbeside : place.relocated = false) : place.path = p := by
  obtain ⟨s, rfl⟩ := (leads_of_run hfind _).mp (Placement.find_site m root p h) place rfl
  cases s with
  | beside => rfl
  | below seen => cases hbeside

/-- The unit has a copy at the place that was found. -/
theorem withCopyAt_placed {place : Placement}
    (hfind : (Placement.find m cfg.cacheRoot u.copy).run h = (.ok place, h')) :
    (u.withCopyAt place).copy = place.path ∧
      (place.relocated = true → u.quoteFlag ∈ (u.withCopyAt place).privateFlags) := by
  cases hrelocated : place.relocated with
  | false =>
    have hsame : u.withCopyAt place = { u with copied := true } := by
      rw [withCopyAt, hrelocated]
      rfl
    rw [hsame]
    exact ⟨(path_of_not_relocated hfind hrelocated).symm, fun hmoved => by cases hmoved⟩
  | true =>
    have hmoved : u.withCopyAt place =
        { (u.pushPrivateFlags [u.quoteFlag]).2 with copy := place.path, copied := true } := by
      rw [withCopyAt, hrelocated]
      rfl
    rw [hmoved]
    refine ⟨rfl, fun _ => ?_⟩
    exact (Flags.infix_pushUnique u.privateFlags [u.quoteFlag]).subset (List.mem_singleton_self _)

/-- The flags of a unit that has found a place for its copy have grown at their end, if at all. -/
theorem grows_withCopyAt (u : CompilationUnit) (place : Placement) :
    u.Grows (u.withCopyAt place) := by
  obtain ⟨hflags, hprivate⟩ := flags_withCopyAt u place
  refine ⟨hflags ▸ List.prefix_rfl, ?_⟩
  rcases hprivate with hsame | hpushed
  · exact hsame ▸ List.prefix_rfl
  · rw [hpushed]
    exact (grows_pushPrivateFlags u _).privateFlags

/-- An operation that opens the copy when it has at most changed the flags. -/
theorem Opens.proceeds (ho : v.Opens m cfg h u') (hf : u.Follows v) (hcopy : v.copy = u.copy)
    (hcopied : v.copied = u.copied) (hgrows : u.Grows v)
    (hfinds : ∀ place, u.Finds m cfg d .copy place ↔ v.isHeader = false ∧
      ∃ h', (Placement.find m cfg.cacheRoot v.copy).run h = (.ok place, h')) :
    u.Proceeds m cfg d u' := by
  have hquote : v.quoteFlag = u.quoteFlag := by
    rw [quoteFlag, quoteFlag, directoryText, directoryText, hf.path]
  have hstill : u' = v → (∀ place, ¬ u.Finds m cfg d .copy place) → u.Proceeds m cfg d u' := by
    rintro rfl hnone
    exact hf.proceeds hgrows (fun place hfind => (hnone place hfind).elim)
      fun _ => ⟨hcopy, fun h => hcopied ▸ h⟩
  cases ho with
  | header hheader =>
    refine hstill rfl fun place hfind => ?_
    rw [hfinds, hheader] at hfind
    exact Bool.false_ne_true hfind.1.symm
  | missing hmissing =>
    refine hstill rfl fun place hfind => ?_
    obtain ⟨-, h', hfound⟩ := (hfinds place).mp hfind
    rw [hmissing] at hfound
    cases hfound
  | @placed place h' hsource hfind =>
    obtain ⟨s, hs⟩ := (leads_of_run hfind _).mp (Placement.find_site m _ _ h) place rfl
    have hfollows : u.Follows (v.withCopyAt place) := by
      rw [hs]
      exact hf.trans (@copies_withCopyAt m cfg v s).follows
    refine hfollows.proceeds (hgrows.trans (grows_withCopyAt v place)) (fun place' hplace' => ?_)
      fun hnone => (hnone place ((hfinds place).mpr ⟨hsource, h', hfind⟩)).elim
    obtain ⟨-, h'', hfound⟩ := (hfinds place').mp hplace'
    rw [hfind] at hfound
    cases hfound
    exact ⟨copied_withCopyAt v place, hquote ▸ withCopyAt_placed hfind⟩

/-- Opening the copy of a unit. -/
theorem openCopy_proceeds {op : Op} (hop : op = .openCopy ∨ ∃ content, op = .writeCopy content)
    (ho : u.Opens m cfg h u') : u.Proceeds m cfg ⟨op, h⟩ u' := by
  refine ho.proceeds (.refl u) rfl rfl (.refl u) fun place => ⟨fun hfinds => ?_, ?_⟩
  · cases hfinds with
    | opened hsource _ hfind => exact ⟨hsource, _, hfind⟩
    | scanned => rcases hop with hop | ⟨content, hop⟩ <;> cases hop
  · rintro ⟨hsource, h', hfind⟩
    exact .opened hsource hop hfind

/-- How a scan of a unit ends: before it comes to a copy, with other flags at most, or with the copy
that it writes when it has read the file and found nothing wrong with it. -/
inductive ScanEnds (m : Machine) (cfg : Config) (u : CompilationUnit) (h : Host) :
    CompilationUnit → Host → Prop where
  | read {u' : CompilationUnit} {h' : Host}
      (hasked : Package.Asked m cfg.pkgConfig h.files h'.files) (hfollows : u.Follows u')
      (hcopy : u'.copy = u.copy) (hcopied : u'.copied = u.copied) (hgrows : u.Grows u')
      (hnone : ∀ place, ¬ u.Finds m cfg ⟨.scan, h⟩ .copy place) : ScanEnds m cfg u h u' h'
  | written {content : Bytes} {s : Scan} {h₁ h' : Host} {r : Except ScanError Unit}
      {u' : CompilationUnit} (hreads : u.Reads m cfg h content none s h₁)
      (hnil : s.diagnostics = []) (hneeds : needsCopy content = true)
      (hw : (Scan.writeCopy m cfg content { s.unit with scanned := true }).run h₁ =
        ((r, u'), h')) : ScanEnds m cfg u h u' h'

/-- A place that a scan finds is found behind the one reading of the file that there is. -/
theorem Finds.reads {content : Bytes} {signal? : Option Signal} {s : Scan} {h₁ : Host}
    {place : Placement} (hf : u.Finds m cfg ⟨.scan, h⟩ .copy place)
    (hr : u.Reads m cfg h content signal? s h₁) :
    signal? = none ∧ s.diagnostics = [] ∧ needsCopy content = true ∧ u.isHeader = false ∧
      ∃ h', (Placement.find m cfg.cacheRoot u.copy).run h₁ = (.ok place, h') := by
  cases hf with
  | opened _ hop => rcases hop with hop | ⟨content, hop⟩ <;> cases hop
  | scanned hsource hreads hnil hneeds hfind =>
    have hcontent := hreads.file
    rw [hr.file] at hcontent
    cases hcontent
    have hlines := hreads.lines
    rw [hr.lines] at hlines
    cases hlines
    exact ⟨rfl, hnil, hneeds, hsource, _, hfind⟩

/-- What has been read into a unit pushes flags at the end, if any. -/
theorem Reads.grows {content : Bytes} {signal? : Option Signal} {s : Scan} {h₁ : Host}
    (hr : u.Reads m cfg h content signal? s h₁) : u.Grows s.unit :=
  (leads_of_run hr.lines _).mp (Scan.readLines_grows 0 _ { unit := u } _)

/-- A scan ends in one of these ways. -/
theorem scan_ends (u : CompilationUnit) (h : Host) :
    Leads (u.scan m cfg) h fun r h' => u.ScanEnds m cfg h r.2 h' := by
  cases hread : h.files.read m.cwd u.path with
  | error cause =>
    rw [leads_of_run (Discovery.scan_of_unreadable hread)]
    refine .read .refl (.refl u) rfl rfl (.refl u) fun place hfinds => ?_
    cases hfinds with
    | opened _ hop => rcases hop with hop | ⟨content, hop⟩ <;> cases hop
    | scanned _ hreads => rw [hreads.file] at hread; cases hread
  | ok content =>
    obtain ⟨signal?, s, h₁, hr⟩ := exists_reads cfg hread
    have hflagged := hr.flagged
    have hmarked : u.Follows { s.unit with scanned := true } :=
      hflagged.follows.trans ⟨rfl, rfl, rfl, rfl, rfl⟩
    have hgrows : u.Grows { s.unit with scanned := true } := ⟨hr.grows.flags, hr.grows.privateFlags⟩
    cases signal? with
    | some signal =>
      rw [leads_of_run (run_scan_interrupted hr)]
      exact .read hr.asked hflagged.follows hflagged.copy hflagged.processedPath.1 hr.grows
        fun place hfinds => by cases (hfinds.reads hr).1
    | none =>
      by_cases hnil : s.diagnostics = []
      case neg =>
        rw [leads_of_run (run_scan_reported hr hnil)]
        exact .read hr.asked hmarked hflagged.copy hflagged.processedPath.1 hgrows
          fun place hfinds => hnil (hfinds.reads hr).2.1
      cases hneeds : needsCopy content with
      | false =>
        rw [leads_of_run (run_scan_clean hr hnil (run_writeCopy_of_not_needed hneeds _ _ _ _))]
        refine .read hr.asked hmarked hflagged.copy hflagged.processedPath.1 hgrows
          fun place hfinds => ?_
        have hneeded := (hfinds.reads hr).2.2.1
        rw [hneeds] at hneeded
        cases hneeded
      | true =>
        obtain ⟨⟨r, u'⟩, h₂, hw⟩ :=
          exists_run (Scan.writeCopy m cfg content { s.unit with scanned := true }) h₁
        rw [leads_of_run (run_scan_clean hr hnil hw)]
        exact .written hr hnil hneeds hw

/-- Scanning a unit. -/
theorem scan_proceeds (u : CompilationUnit) (h : Host) :
    Leads (u.scan m cfg) h fun r _ => u.Proceeds m cfg ⟨.scan, h⟩ r.2 := by
  refine (scan_ends u h).mono fun r h' hends => ?_
  cases hends with
  | read _ hfollows hcopy hcopied hgrows hnone =>
    exact hfollows.proceeds hgrows (fun place hfinds => (hnone place hfinds).elim)
      fun _ => ⟨hcopy, fun h => hcopied ▸ h⟩
  | @written content s h₁ _ _ _ hr hnil hneeds hw =>
    have hflagged := hr.flagged
    have hheader : s.unit.isHeader = u.isHeader := by
      rw [isHeader, isHeader, hflagged.follows.kind]
    refine ((leads_of_run hw _).mp (scanWriteCopy_opens hneeds _ h₁)).proceeds
      (hflagged.follows.trans ⟨rfl, rfl, rfl, rfl, rfl⟩) hflagged.copy hflagged.processedPath.1
      ⟨hr.grows.flags, hr.grows.privateFlags⟩ fun place => ⟨fun hfinds => ?_, ?_⟩
    · obtain ⟨-, -, -, hsource, h', hfound⟩ := hfinds.reads hr
      exact ⟨hheader.trans hsource, h', hflagged.copy.symm ▸ hfound⟩
    · rintro ⟨hsource, h', hfound⟩
      exact .scanned (hheader.symm.trans hsource) hr hnil hneeds (hflagged.copy ▸ hfound)

/-- Asking a unit for its object. -/
theorem object_proceeds (u : CompilationUnit) (h : Host) :
    Leads (u.object m cfg) h fun r _ => u.Proceeds m cfg ⟨.object, h⟩ r.2 := by
  have hstill : u.Proceeds m cfg ⟨.object, h⟩ u := flagged_proceeds (.refl u) (.refl u) rfl
  refine (object_yields m cfg u h).mono fun r h' hyields => ?_
  cases hyields with
  | header => exact hstill
  | known => exact hstill
  | asked _ _ hasked => cases hasked
  | missing => exact hstill
  | @found place _ hsource hnone _ hfind =>
    refine { hstill with
      grows := ⟨List.prefix_rfl, List.prefix_rfl⟩
      objectFound := ?_
      objectKept := fun p hp => by rw [hnone] at hp; cases hp }
    rintro p ⟨⟩
    exact .inr ⟨place, .object hsource hnone hfind, rfl⟩

/-- Asking a unit for its executable. -/
theorem executable_proceeds (u : CompilationUnit) (h : Host) :
    Leads (u.executable m cfg) h fun r _ => u.Proceeds m cfg ⟨.executable, h⟩ r.2 := by
  have hstill : u.Proceeds m cfg ⟨.executable, h⟩ u := flagged_proceeds (.refl u) (.refl u) rfl
  refine (executable_yields m cfg u h).mono fun r h' hyields => ?_
  cases hyields with
  | header => exact hstill
  | known => exact hstill
  | missing => exact hstill
  | asked hsource hnone hasked =>
    refine { hstill with
      grows := ⟨List.prefix_rfl, List.prefix_rfl⟩
      executableFound := ?_
      executableKept := fun p hp => by rw [hnone] at hp; cases hp }
    rintro p ⟨⟩
    exact .inr (.inl ⟨hsource, hasked⟩)
  | @found place _ hsource hnone hunasked hfind =>
    refine { hstill with
      grows := ⟨List.prefix_rfl, List.prefix_rfl⟩
      executableFound := ?_
      executableKept := fun p hp => by rw [hnone] at hp; cases hp }
    rintro p ⟨⟩
    exact .inr (.inr ⟨place, .executable hsource hnone hunasked hfind, rfl⟩)

/-- Removing the copy and the object of a unit. -/
theorem cleaned_proceeds (u : CompilationUnit) (h : Host) :
    u.Proceeds m cfg ⟨.cleanup, h⟩ (u.cleaned cfg) := by
  have hstill : u.Proceeds m cfg ⟨.cleanup, h⟩ u := flagged_proceeds (.refl u) (.refl u) rfl
  cases hsave : cfg.saveTemps with
  | true =>
    rw [cleaned, hsave]
    exact hstill
  | false =>
    rw [cleaned_of_discarding hsave]
    refine { hstill with
      grows := ⟨List.prefix_rfl, List.prefix_rfl⟩
      placed := fun place hfinds => (not_finds_copy rfl h place hfinds).elim
      unplaced := fun _ => ⟨rfl, fun hcopied => by cases hcopied⟩
      objectFound := fun p hp => by cases hp
      objectKept := fun _ _ => .inr ⟨rfl, hsave⟩ }

/-- Removing the executable of a unit. -/
theorem withoutExecutable_proceeds (u : CompilationUnit) (h : Host) :
    u.Proceeds m cfg ⟨.removeExecutable, h⟩ (u.withoutExecutable cfg) := by
  have hstill : u.Proceeds m cfg ⟨.removeExecutable, h⟩ u :=
    flagged_proceeds (.refl u) (.refl u) rfl
  cases hkeep : cfg.saveTemps || cfg.buildsOnly with
  | true =>
    rw [withoutExecutable, hkeep]
    exact hstill
  | false =>
    rw [withoutExecutable, hkeep, if_neg Bool.false_ne_true]
    obtain ⟨hsave, hbuild⟩ := Bool.or_eq_false_iff.mp hkeep
    refine { hstill with
      grows := ⟨List.prefix_rfl, List.prefix_rfl⟩
      placed := fun place hfinds => (not_finds_copy rfl h place hfinds).elim
      executableFound := fun p hp => by cases hp
      executableKept := fun _ _ => .inr ⟨rfl, hsave, hbuild⟩ }

/-- What any operation makes of a unit. -/
theorem Deed.proceeds (m : Machine) (cfg : Config) (u : CompilationUnit) (d : Deed) :
    u.Proceeds m cfg d (d.run m cfg u).1 := by
  obtain ⟨op, h⟩ := d
  cases op with
  | scan => exact scan_proceeds u h
  | pushFlags run =>
    exact flagged_proceeds (flagged_pushFlags u run) (grows_pushFlags u run) rfl
  | pushPrivateFlags run =>
    exact flagged_proceeds (flagged_pushPrivateFlags u run) (grows_pushPrivateFlags u run) rfl
  | pushFlagText text =>
    exact flagged_proceeds (flagged_pushFlags u _) (grows_pushFlags u _) rfl
  | pushPrivateFlagText text =>
    exact flagged_proceeds (flagged_pushPrivateFlags u _) (grows_pushPrivateFlags u _) rfl
  | openCopy => exact openCopy_proceeds (.inl rfl) (openCopy_opens u h)
  | writeCopy content =>
    exact openCopy_proceeds (.inr ⟨content, rfl⟩) (writeCopy_opens content u h)
  | object => exact object_proceeds u h
  | executable => exact executable_proceeds u h
  | cleanup =>
    have hresult : (Deed.run m cfg u ⟨.cleanup, h⟩).1 = u.cleaned cfg := cleanup_result u h
    rw [hresult]
    exact cleaned_proceeds u h
  | removeExecutable =>
    have hresult : (Deed.run m cfg u ⟨.removeExecutable, h⟩).1 = u.withoutExecutable cfg :=
      removeExecutable_result u h
    rw [hresult]
    exact withoutExecutable_proceeds u h

end CompilationUnit

end CxxScript

import CxxScript.Proofs.Build.Removing
import CxxScript.Proofs.Build.Termination
import CxxScript.Proofs.Host.Unmarked

/-!
# How many files a collection reads

A unit whose key is the real location of its file stands for that location alone, so at most as many
of these are read as there are files. A unit has another key only if its path could not be resolved
when it was mentioned. That is never so where no copy is in the way of the files, `Undisturbed`:
then every unit that is read has been mentioned by a path that led to its file all along,
`Ends.exists_readable`, and there are no more of them than there were files: `Terminates`.
-/

set_option autoImplicit false

namespace CxxScript.Discovery

open Host

variable {m : Machine} {cfg : Config}

/-! ## What a collection visits -/

/-- What a collection has visited until it ends, the visit that made it fail included. -/
structure Visited (m : Machine) (cfg : Config) (s : State) (vs : List Visit) (h' : Host) :
    Prop where
  runs : ∀ v ∈ vs, v.Runs m cfg
  seen : ∃ rest, vs.map (·.unit) ++ rest =
    unscanned s.todo ++ fresh s.units (vs.flatMap Visit.found)
  reached : ∀ before v after, vs = before ++ v :: after →
    v.unit ∈ s.todo ∨ ∃ w ∈ before, v.unit ∈ w.found
  scans : h'.scans = s.host.scans ++ vs.map (·.unit.path)

/-- What a collection has visited until it ends. -/
theorem Ends.visited {s : State} {vs : List Visit}
    {r : Except Failure Unit × List CompilationUnit × Toolset} {h' : Host}
    (h : Ends m cfg s vs r h') : Visited m cfg s vs h' := by
  cases h with
  | finished hsteps =>
    have hp := hsteps.progress
    exact ⟨fun v hv => (hp.runs v hv).1, ⟨_, hp.seen⟩, hp.reached, hp.scans⟩
  | @failed n vs done todo ts v e hsteps hu hv ho =>
    have hp := hsteps.progress
    have hfound : v.found = [] := by rw [Visit.found, ho]
    have hhere : unscanned (v.unit :: todo) = v.unit :: unscanned todo :=
      List.filter_cons_of_pos (by simp [hu])
    have hseen : vs.map (·.unit) ++ v.unit :: unscanned todo =
        unscanned s.todo ++ fresh s.units (vs.flatMap Visit.found) := by
      rw [← hhere]
      exact hp.seen
    refine ⟨?_, ⟨unscanned todo, ?_⟩, ?_, ?_⟩
    · intro w hw
      rcases List.mem_append.mp hw with hw | hw
      · exact (hp.runs w hw).1
      · rw [List.mem_singleton] at hw
        exact hw ▸ hv
    · rw [List.map_append, List.append_assoc, List.flatMap_append, List.flatMap_singleton, hfound,
        List.append_nil]
      exact hseen
    · intro before w after hsplit
      rcases List.eq_nil_or_concat after with rfl | ⟨after, x, rfl⟩
      · obtain ⟨rfl, hw⟩ := List.append_inj' hsplit rfl
        obtain ⟨rfl, -⟩ := List.cons.inj hw
        have hmem : v.unit ∈ unscanned s.todo ++ fresh s.units (vs.flatMap Visit.found) := by
          rw [← hseen]
          exact List.mem_append_right _ List.mem_cons_self
        rcases List.mem_append.mp hmem with hmem | hmem
        · exact .inl (List.mem_of_mem_filter hmem)
        · exact .inr (List.mem_flatMap.mp (mem_of_mem_fresh hmem))
      · rw [List.concat_eq_append, ← List.cons_append, ← List.append_assoc] at hsplit
        exact hp.reached before w after (List.append_inj' hsplit rfl).1
    · rw [hv.scans, hp.scans, List.map_append, List.append_assoc]
      rfl

/-- Where the keys of the first units are different, those of the visited ones are. -/
theorem Visited.nodup {s : State} {vs : List Visit} {h' : Host} (h : Visited m cfg s vs h')
    (hs : (s.units.map (·.identity)).Nodup) : (vs.map (·.unit.identity)).Nodup := by
  obtain ⟨rest, hseen⟩ := h.seen
  have hsublist : (unscanned s.todo ++ fresh s.units (vs.flatMap Visit.found)).Sublist
      (s.units ++ fresh s.units (vs.flatMap Visit.found)) := by
    refine List.Sublist.append_right ?_ _
    exact List.filter_sublist.trans (List.sublist_append_right _ _)
  have hnodup := (nodup_append_fresh hs (vs.flatMap Visit.found)).sublist (hsublist.map _)
  rw [← hseen, List.map_append, List.map_map] at hnodup
  exact (List.nodup_append.mp hnodup).1

namespace Visit

/-- Whether the unit's file could be read. -/
def reads (m : Machine) (v : Visit) : Bool := (v.start.files.read m.cwd v.unit.path).isOk

/-- Whether the unit's path could be resolved in some files. -/
def resolvesIn (m : Machine) (fs : Files) (v : Visit) : Bool :=
  (fs.canonical? m.cwd v.unit.path).isSome

/-- Whether the unit's key is the real location of the file that was read. -/
def isKeyed (m : Machine) (v : Visit) : Bool :=
  v.reads m && (v.start.files.canonical? m.cwd v.unit.path).any fun at_ =>
    v.unit.identity = at_.path

/-- Whether the file that the unit's path led to could be read in some files. -/
def readableIn (m : Machine) (fs : Files) (v : Visit) : Bool :=
  (v.start.files.canonical? m.cwd v.unit.path).any fun at_ => at_ ∈ fs.readable

/-- What could be read has been read. -/
theorem exists_of_reads {v : Visit} (h : v.reads m = true) :
    ∃ content, v.start.files.read m.cwd v.unit.path = .ok content := by
  rw [reads] at h
  cases hr : v.start.files.read m.cwd v.unit.path with
  | error cause => rw [hr] at h; cases h
  | ok content => exact ⟨content, rfl⟩

/-- A unit with the key of its file was read where there is something to read. -/
theorem exists_of_isKeyed {v : Visit} (h : v.isKeyed m = true) :
    ∃ at_ ∈ v.start.files.readable, v.start.files.canonical? m.cwd v.unit.path = some at_ ∧
      v.unit.identity = at_.path := by
  rw [isKeyed, Bool.and_eq_true] at h
  obtain ⟨hread, hkey⟩ := h
  rw [Option.any_eq_true] at hkey
  obtain ⟨at_, hat, hid⟩ := hkey
  obtain ⟨content, hr⟩ := exists_of_reads hread
  obtain ⟨loc, e, hlocate, hget, he⟩ := Files.read_eq_ok hr
  refine ⟨at_, ?_, hat, of_decide_eq_true hid⟩
  rw [Files.canonical?_eq_of_locate hat hlocate]
  exact Files.mem_readable.mpr ⟨e, hget, he⟩

/-- A unit that got its key when its path could be resolved has it when the path is read. -/
theorem isKeyed_of_resolvesIn {fs : Files} {v : Visit} (hg : fs.Grows v.start.files)
    (hid : v.unit.identity = fs.identity m.cwd v.unit.path) (hread : v.reads m = true)
    (hresolves : v.resolvesIn m fs = true) : v.isKeyed m = true := by
  obtain ⟨at_, hat⟩ := Option.isSome_iff_exists.mp hresolves
  have hthere := Files.canonical?_grows hg hat
  rw [isKeyed, hread, hthere, Bool.true_and, Option.any_some, hid, Files.identity, hat]
  exact decide_eq_true rfl

end Visit

/-- Visits of units with the keys of their files, all different, are no more than the places where
the files stand. -/
theorem length_le_card {vs : List Visit} (hnodup : (vs.map (·.unit.identity)).Nodup)
    (places : Finset Location)
    (h : ∀ v ∈ vs, ∃ at_ ∈ places, v.unit.identity = at_.path) : vs.length ≤ places.card := by
  choose! at_ hmem hid using h
  have hpaths : vs.map (·.unit.identity) = (vs.map at_).map Location.path := by
    rw [List.map_map]
    exact List.map_congr_left fun v hv => hid v hv
  have hdistinct : (vs.map at_).Nodup := by
    rw [hpaths] at hnodup
    exact hnodup.of_map _
  have hsubset : (vs.map at_).toFinset ⊆ places := by
    intro loc hloc
    obtain ⟨v, hv, rfl⟩ := List.mem_map.mp (List.mem_toFinset.mp hloc)
    exact hmem v hv
  calc vs.length = (vs.map at_).toFinset.card := by
        rw [List.toFinset_card_of_nodup hdistinct, List.length_map]
    _ ≤ places.card := Finset.card_le_card hsubset

/-! ## Copies that are in nobody's way -/

/-- Asking for packages that changes no file changes none however often it is done. -/
theorem eq_of_asked (hq : Package.KeepsFiles m cfg.pkgConfig) {fs fs' : Files}
    (h : Package.Asked m cfg.pkgConfig fs fs') : fs' = fs := by
  induction h with
  | refl => rfl
  | tail _ hstep ih =>
    obtain ⟨requirement, h, hfiles, hleads⟩ := hstep
    rw [← ih, ← hfiles]
    exact hleads.symm.trans (hq requirement h)

/-- A collection keeps to names with the token of the run. -/
theorem frame_confines (hq : Package.KeepsFiles m cfg.pkgConfig) :
    VisitFrame m cfg (CompilationUnit.Named m.pid) (Confines (CompilationUnit.token m.pid)) where
  still := .of_files
  trans := .trans
  visit hv hnamed := by
    obtain ⟨h₁, hasked, hconfines⟩ :=
      (leads_of_run hv _).mp (CompilationUnit.scan_confines hnamed _)
    exact (Confines.of_files (eq_of_asked hq hasked)).trans hconfines
  made hv f hf := by
    obtain ⟨h', kind, p, -, rfl⟩ := hv.made (trivialFrame m cfg).toFrame f hf
    exact CompilationUnit.named_ofPath m h' kind p

/-- When the copies of units that are collected from `h` are in nobody's way: the units have just
been made, the working directory is there, neither the path of a unit nor a link bears the token of
the run, and no directory has come when a unit is read. -/
structure Undisturbed (m : Machine) (units : List CompilationUnit) (h : Host)
    (visits : List Visit) : Prop where
  made : ∀ u ∈ units, ∃ kind p, u = .ofPath m h kind p
  working : (h.files.workingLocation? m.cwd).isSome = true
  rooted : h.files.Rooted
  links : h.files.LinksUnmarked (CompilationUnit.token m.pid)
  paths : ∀ v ∈ visits, Files.Unmarked (CompilationUnit.token m.pid) v.unit.path.text
  directories : ∀ v ∈ visits, ∀ at_, v.start.files.get? at_ = some .directory →
    h.files.get? at_ = some .directory

/-- Where no copy is in the way, a unit that is read has the real location of a file as its key that
could be read before. -/
theorem Ends.exists_readable (hq : Package.KeepsFiles m cfg.pkgConfig)
    {units : List CompilationUnit} {ts : Toolset} {h h' : Host} {visits : List Visit}
    {r : Except Failure Unit × List CompilationUnit × Toolset}
    (he : Ends m cfg ⟨[], units, ts, h⟩ visits r h') (hu : Undisturbed m units h visits)
    {v : Visit} (hv : v ∈ visits) (hread : v.reads m = true) :
    ∃ at_ ∈ h.files.readable, v.unit.identity = at_.path := by
  have hnamed : ∀ u ∈ units, u.Named m.pid := by
    intro u hmem
    obtain ⟨kind, p, rfl⟩ := hu.made u hmem
    exact CompilationUnit.named_ofPath m h kind p
  have hvisited := he.visited
  have hgrows := (he.growth hq).starts
  have hconfines := (he.through (frame_confines hq) hnamed).starts
  have hapart : h.files.Apart (CompilationUnit.token m.pid) v.start.files :=
    ⟨hu.rooted, hu.links, (hconfines v hv).1.2 hu.links.names, hu.directories v hv⟩
  obtain ⟨content, hcontent⟩ := Visit.exists_of_reads hread
  obtain ⟨at_, e, hat, hget, hreadable⟩ := Files.exists_readable_of_apart hapart (hgrows v hv).1
    hu.working (hu.paths v hv) hcontent
  refine ⟨at_, Files.mem_readable.mpr ⟨e, hget, hreadable⟩, ?_⟩
  rcases found_of_reached hvisited.reached hv with hfirst | ⟨w, hw, hfound⟩
  · obtain ⟨kind, p, hmade⟩ := hu.made v.unit hfirst
    have hid : v.unit.identity = h.files.identity m.cwd v.unit.path := by
      rw [hmade]
      rfl
    rw [hid, Files.identity, hat]
  · rw [(hvisited.runs w hw).identity_found hq v.unit hfound, Files.identity,
      Files.canonical?_grows (hgrows w hw).1 hat]

/-! ## The end of a collection -/

/-- What it means that collecting the files of some units comes to an end. -/
structure Terminates (m : Machine) (cfg : Config) (units : List CompilationUnit) (ts : Toolset)
    (h : Host) (visits : List Visit)
    (r : Except Failure Unit × List CompilationUnit × Toolset) (h' : Host) : Prop where
  /-- Every unit has been gone through, or a visit has failed. -/
  ends : Ends m cfg ⟨[], units, ts, h⟩ visits r h'
  notEndless : r.1 ≠ .error .endless
  /-- The units that were read under the keys of their files are no more than the files that can be
  read at the end. -/
  present : (units.map (·.identity)).Nodup →
    (visits.filter (·.isKeyed m)).length ≤ h'.files.readable.card
  /-- Those among them whose files were there before are no more than the files that could be read
  before. -/
  before : (units.map (·.identity)).Nodup →
    (visits.filter fun v => v.isKeyed m && v.readableIn m h.files).length ≤ h.files.readable.card
  /-- Where no copy is in the way, all units that were read are no more than the files that could be
  read before. -/
  undisturbed : (units.map (·.identity)).Nodup → Undisturbed m units h visits →
    (visits.filter (·.reads m)).length ≤ h.files.readable.card
  /-- A unit that was read under another key had a path that led to nothing when it was
  mentioned. -/
  keyed : ∀ earlier v later, visits = earlier ++ v :: later → v.reads m = true →
    v.isKeyed m = true ∨
    (v.unit ∈ units ∧ (v.unit.identity = h.identity m v.unit.path →
      v.resolvesIn m h.files = false)) ∨
    ∃ w ∈ earlier, v.unit ∈ w.found ∧ v.resolvesIn m w.start.files = false

/-- A collection that ends does so in the files that there are. -/
theorem Ends.terminates (hq : Package.KeepsFiles m cfg.pkgConfig) {units : List CompilationUnit}
    {ts : Toolset} {h h' : Host} {visits : List Visit}
    {r : Except Failure Unit × List CompilationUnit × Toolset}
    (he : Ends m cfg ⟨[], units, ts, h⟩ visits r h') :
    Terminates m cfg units ts h visits r h' := by
  have hv := he.visited
  have hg := he.growth hq
  have hcount : ∀ (p : Visit → Bool) (places : Finset Location),
      (units.map (·.identity)).Nodup →
      (∀ v ∈ visits, p v = true → ∃ at_ ∈ places, v.unit.identity = at_.path) →
      (visits.filter p).length ≤ places.card := by
    intro p places hdistinct hplaces
    have hnodup : ((visits.filter p).map (·.unit.identity)).Nodup :=
      (hv.nodup hdistinct).sublist (List.filter_sublist.map _)
    refine length_le_card hnodup places fun v hmem => ?_
    exact hplaces v (List.mem_filter.mp hmem).1 (List.mem_filter.mp hmem).2
  refine
    { ends := he
      notEndless := ?notEndless
      present := ?present
      before := ?before
      undisturbed := fun hdistinct hu =>
        hcount _ _ hdistinct fun v hmem hread => he.exists_readable hq hu hmem hread
      keyed := ?keyed }
  case notEndless => cases he <;> simp
  case present =>
    intro hdistinct
    refine hcount _ _ hdistinct fun v hmem hkeyed => ?_
    obtain ⟨at_, hread, -, hid⟩ := Visit.exists_of_isKeyed hkeyed
    exact ⟨at_, Files.readable_subset_of_grows (hg.starts v hmem).2 hread, hid⟩
  case before =>
    intro hdistinct
    refine hcount _ _ hdistinct fun v _ hboth => ?_
    rw [Bool.and_eq_true] at hboth
    obtain ⟨at_, -, hat, hid⟩ := Visit.exists_of_isKeyed hboth.1
    have hthere := hboth.2
    rw [Visit.readableIn, hat, Option.any_some] at hthere
    exact ⟨at_, of_decide_eq_true hthere, hid⟩
  case keyed =>
    intro earlier v later hsplit hread
    have hmem : v ∈ visits := by
      rw [hsplit]
      exact List.mem_append_right _ List.mem_cons_self
    rcases hv.reached earlier v later hsplit with hfirst | ⟨w, hw, hfound⟩
    · by_cases hid : v.unit.identity = h.identity m v.unit.path
      · cases hres : v.resolvesIn m h.files with
        | false => exact .inr (.inl ⟨hfirst, fun _ => rfl⟩)
        | true => exact .inl (Visit.isKeyed_of_resolvesIn (hg.starts v hmem).1 hid hread hres)
      · exact .inr (.inl ⟨hfirst, fun h => absurd h hid⟩)
    · have hwmem : w ∈ visits := by
        rw [hsplit]
        exact List.mem_append_left _ hw
      have hid := (hv.runs w hwmem).identity_found hq v.unit hfound
      have hgrows : w.start.files.Grows v.start.files := by
        have hordered := hg.ordered
        rw [hsplit, List.pairwise_append] at hordered
        exact hordered.2.2 w hw v List.mem_cons_self
      cases hres : v.resolvesIn m w.start.files with
      | false => exact .inr (.inr ⟨w, hw, hfound, hres⟩)
      | true => exact .inl (Visit.isKeyed_of_resolvesIn hgrows hid hread hres)

end CxxScript.Discovery

namespace CxxScript.Build

open Host Discovery

/-- The host on which a source names another by three ways through `cache/tmp`, a directory that is
only made when the copy of the source is put into the cache, since there is a directory with the
name of the copy beside the source. Each way begins with a link, so without `cache/tmp` each leads
by its text alone to a place of its own. -/
def detour : Host where
  files :=
    { entries := [
        (["tmp"], .directory), (["tmp", "cache"], .directory), (["tmp", "q"], .directory),
        (["tmp", "m-hbcxx-7.cpp"], .directory),
        (["tmp", "a"], .directory), (["tmp", "a", "l"], .link "../q"),
        (["tmp", "b"], .directory), (["tmp", "b", "l"], .link "../q"),
        (["tmp", "c"], .directory), (["tmp", "c", "l"], .link "../q"),
        (["tmp", "m.cpp"], .file (Text.Utf8.encode ("#!/usr/bin/env hbcxx\n" ++
          "//#! source: a/l/../cache/tmp/../x.cpp\n//#! source: b/l/../cache/tmp/../x.cpp\n" ++
          "//#! source: c/l/../cache/tmp/../x.cpp\n")) false),
        (["tmp", "cache", "x.cpp"], .file (Text.Utf8.encode "int x;\n") false)] }

/-- The host on which a source names a link to the place where its copy is going to be. -/
def dangling : Host where
  files :=
    { entries := [
        (["tmp"], .directory), (["tmp", "z.cpp"], .link "m-hbcxx-7.cpp"),
        (["tmp", "m.cpp"], .file (Text.Utf8.encode
          "#!/usr/bin/env hbcxx\n//#! source: z.cpp\n") false)] }

/-- Collecting the files of the source on that host. -/
def danglingRun : (Except Failure Unit × Build × Toolset) × Host :=
  ((Build.ofPath (idleMachine ["tmp"] 7) dangling (plainConfig "/cache") ⟨"m.cpp"⟩).discover
    (idleMachine ["tmp"] 7) (.ofConfig (plainConfig "/cache"))).run dangling

/-- The link is mentioned once before the copy is there and once after, so the copy is read twice,
and no directory is made on the way. -/
example : danglingRun.1.1.isOk = true ∧
    danglingRun.1.2.1.units.map (·.identity.text) =
      ["/tmp/m.cpp", "/tmp/z.cpp", "/tmp/m-hbcxx-7.cpp"] ∧
    danglingRun.2.scans.map (·.text) = ["m.cpp", "z.cpp", "z.cpp"] ∧
    danglingRun.2.files.readable.card = 2 := by
  decide +kernel

/-- The host on which the working directory has been removed and a source beside it names another by
two links to its directory. -/
def evicted : Host where
  files :=
    { entries := [
        (["a"], .link "d"), (["b"], .link "d"), (["d"], .directory),
        (["m.cpp"], .file (Text.Utf8.encode
          "//#! source: a/x.cpp\n//#! source: b/x.cpp\n") false),
        (["d", "x.cpp"], .file (Text.Utf8.encode "int x;\n") false)]
      removed := [["tmp"]] }

/-- Nothing can be resolved from a directory that is gone, so the other source is read once by each
link. -/
example : (((Build.ofPath (idleMachine ["tmp"] 7) evicted (plainConfig "/cache")
      ⟨"../m.cpp"⟩).discover (idleMachine ["tmp"] 7)
        (.ofConfig (plainConfig "/cache"))).run evicted).2.scans.map (·.text) =
      ["../m.cpp", "../a/x.cpp", "../b/x.cpp"] ∧
    evicted.files.readable.card = 2 := by
  decide +kernel

end CxxScript.Build

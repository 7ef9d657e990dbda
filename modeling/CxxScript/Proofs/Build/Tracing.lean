import CxxScript.Proofs.Build.Operating
import CxxScript.Proofs.Path.Below
import Mathlib.Data.List.Induction

/-!
# Where a unit has what it has from

Whatever a unit has after some operations, an earlier one among them has found the place for it,
`Found`. The copy is always named after the file of the unit, wherever it has been moved to,
`Named`, and so is what is derived from the copy: the last name of every place that is found is that
of the file without its extension, the token of the run and an extension, `Named.found`.
-/

set_option autoImplicit false

namespace CxxScript.CompilationUnit

open Host

variable {m : Machine} {cfg : Config} {u : CompilationUnit} {ds : List Deed} {d : Deed}
  {art : Artifact} {p : Path} {place : Placement}

/-! ## What is the same after every run -/

/-- The unit stays for the same file. -/
theorem after_same (u : CompilationUnit) (ds : List Deed) :
    (after m cfg u ds).path = u.path ∧ (after m cfg u ds).identity = u.identity ∧
      (after m cfg u ds).kind = u.kind := by
  induction ds generalizing u with
  | nil => exact ⟨rfl, rfl, rfl⟩
  | cons d rest ih =>
    have hstep := d.proceeds m cfg u
    obtain ⟨hpath, hidentity, hkind⟩ := ih (d.run m cfg u).1
    exact ⟨hpath.trans hstep.path, hidentity.trans hstep.identity, hkind.trans hstep.kind⟩

/-- The flags grow at their end. -/
theorem after_grows (u : CompilationUnit) (ds : List Deed) : u.Grows (after m cfg u ds) := by
  induction ds generalizing u with
  | nil => exact .refl u
  | cons d rest ih => exact (d.proceeds m cfg u).grows.trans (ih _)

/-! ## What has been found -/

/-- One of some operations has found a place for something. -/
def Found (m : Machine) (cfg : Config) (u : CompilationUnit) (ds : List Deed) (art : Artifact)
    (p : Path) : Prop :=
  ∃ earlier d later place, ds = earlier ++ d :: later ∧
    (after m cfg u earlier).Finds m cfg d art place ∧ place.path = p

/-- The last operation may have found it. -/
theorem Found.last (hfinds : (after m cfg u ds).Finds m cfg d art place) :
    u.Found m cfg (ds ++ [d]) art place.path := ⟨ds, d, [], place, rfl, hfinds, rfl⟩

/-- What has been found has been found when there are more operations. -/
theorem Found.concat (hf : u.Found m cfg ds art p) (d : Deed) :
    u.Found m cfg (ds ++ [d]) art p := by
  obtain ⟨earlier, d', later, place, rfl, hfinds, hp⟩ := hf
  exact ⟨earlier, d', later ++ [d], place, by simp, hfinds, hp⟩

/-- The copy stands at a place that has been found. -/
theorem copy_found (hnone : u.copied = false) (hcopied : (after m cfg u ds).copied = true) :
    u.Found m cfg ds .copy (after m cfg u ds).copy := by
  induction ds using List.reverseRecOn with
  | nil => exact absurd (hnone.symm.trans hcopied) Bool.false_ne_true
  | append_singleton ds d ih =>
    have hstep := d.proceeds m cfg (after m cfg u ds)
    rw [after_concat] at hcopied ⊢
    by_cases hfinds : ∃ place, (after m cfg u ds).Finds m cfg d .copy place
    · obtain ⟨place, hfinds⟩ := hfinds
      rw [(hstep.placed place hfinds).2.1]
      exact .last hfinds
    · obtain ⟨hcopy, hbefore⟩ := hstep.unplaced fun place h => hfinds ⟨place, h⟩
      rw [hcopy]
      exact (ih (hbefore hcopied)).concat d

/-- The object is at a place that has been found. -/
theorem object_found (hnone : u.object? = none) (hp : (after m cfg u ds).object? = some p) :
    u.Found m cfg ds .object p := by
  induction ds using List.reverseRecOn with
  | nil => rw [after, List.foldl_nil, hnone] at hp; cases hp
  | append_singleton ds d ih =>
    rw [after_concat] at hp
    rcases (d.proceeds m cfg (after m cfg u ds)).objectFound p hp with hold | ⟨place, hfinds, rfl⟩
    · exact (ih hold).concat d
    · exact .last hfinds

/-- The executable is the one that was asked for, or at a place that has been found. -/
theorem executable_found (hnone : u.executable? = none)
    (hp : (after m cfg u ds).executable? = some p) :
    (u.isHeader = false ∧ cfg.executable = some p) ∨ u.Found m cfg ds .executable p := by
  induction ds using List.reverseRecOn with
  | nil => rw [after, List.foldl_nil, hnone] at hp; cases hp
  | append_singleton ds d ih =>
    rw [after_concat] at hp
    rcases (d.proceeds m cfg (after m cfg u ds)).executableFound p hp with
      hold | ⟨hsource, hasked⟩ | ⟨place, hfinds, rfl⟩
    · exact (ih hold).imp id fun hf => hf.concat d
    · rw [isHeader, (after_same u ds).2.2] at hsource
      exact .inl ⟨hsource, hasked⟩
    · exact .inr (.last hfinds)

/-- No place is found for anything of a header. -/
theorem Finds.source (hf : u.Finds m cfg d art place) : u.isHeader = false := by
  cases hf <;> assumption

/-- Nothing has been found for a header. -/
theorem Found.source (hf : u.Found m cfg ds art p) : u.isHeader = false := by
  obtain ⟨earlier, d, later, place, -, hfinds, -⟩ := hf
  have hsource := hfinds.source
  rw [isHeader, (after_same u earlier).2.2] at hsource
  exact hsource

/-! ## Names -/

/-- Where something is meant to stand, by the copy that it is derived from. -/
def Artifact.natural (copy : Path) : Artifact → Path
  | .copy => copy
  | .object => copy.withExtension "o"
  | .executable => copy.withExtension ""

/-- What follows the token in the name of something that is derived from a file. -/
def Artifact.suffix (file : Path) : Artifact → String
  | .copy => "." ++ copyExtension file
  | .object => ".o"
  | .executable => ""

/-- There is no slash in that. -/
theorem Artifact.not_mem_suffix (file : Path) (art : Artifact) :
    '/' ∉ (art.suffix file).toList := by
  cases art with
  | copy =>
    rw [suffix, String.toList_append, List.mem_append, not_or]
    exact ⟨by decide, (not_mem_copyExtension file).2⟩
  | object => exact (by decide : '/' ∉ ".o".toList)
  | executable => exact (by decide : '/' ∉ "".toList)

/-- A place that is found is a site for where the thing is meant to stand. -/
theorem Finds.site (hf : u.Finds m cfg d art place) :
    ∃ s : Site, place = s.placement m cfg.cacheRoot (art.natural u.copy) := by
  cases hf with
  | opened _ _ hfind =>
    exact (leads_of_run hfind _).mp (Placement.find_site m _ _ _) place rfl
  | scanned _ hreads _ _ hfind =>
    exact (leads_of_run hfind _).mp (Placement.find_site m _ _ _) place rfl
  | object _ _ hfind =>
    exact (leads_of_run hfind _).mp (Placement.find_site m _ _ _) place rfl
  | executable _ _ _ hfind =>
    exact (leads_of_run hfind _).mp (Placement.find_site m _ _ _) place rfl

/-- A path is named after a file: its last name is that of the file without its extension, then the
token of the run and what tells the copy, the object and the executable apart. -/
def NamedAfter (pid : Nat) (file : Path) (art : Artifact) (p : Path) : Prop :=
  ∃ t, p = ⟨t ++ (token pid ++ art.suffix file)⟩ ∧
    Path.lastOf t.toList = Path.lastOf (trunk file).toList

section NamedAfter

variable {pid : Nat} {file : Path}

/-- What is named after a file ends in a name with the token. -/
theorem NamedAfter.endsIn (hn : NamedAfter pid file art p) :
    p.EndsIn (String.ofList (Path.lastOf (trunk file).toList) ++ token pid ++ art.suffix file) := by
  obtain ⟨t, rfl, hlast⟩ := hn
  rw [← hlast]
  exact endsIn_append_token t pid (art.not_mem_suffix file)

/-- What is named after a file is so at any site. -/
theorem NamedAfter.site (hn : NamedAfter pid file art p) (m : Machine) (root : Path) (s : Site) :
    NamedAfter pid file art (s.path m root p) := by
  obtain ⟨t, rfl, hlast⟩ := hn
  have hname : Path.IsName (Path.lastOf t.toList ++ (token pid ++ art.suffix file).toList) := by
    rw [String.toList_append]
    exact isName_append_token (Path.not_mem_lastOf _) pid (art.not_mem_suffix file)
  refine ⟨s.trunk m root t, s.path_append m root hname, ?_⟩
  rw [← hlast]
  cases s with
  | beside => rfl
  | below seen => exact Path.lastOf_mirror root _ t

/-- What is derived from a copy that is named after a file is meant to be so too. -/
theorem NamedAfter.natural (hn : NamedAfter pid file .copy p) (art : Artifact) :
    NamedAfter pid file art (art.natural p) := by
  obtain ⟨hdot, hslash⟩ := not_mem_copyExtension file
  obtain ⟨t, rfl, hlast⟩ := hn
  cases art with
  | copy => exact ⟨t, rfl, hlast⟩
  | object => exact ⟨t, withExtension_ending t pid hdot hslash "o", hlast⟩
  | executable => exact ⟨t, withExtension_ending t pid hdot hslash "", hlast⟩

/-- The last name of a file is at most as long as that of its trunk, a dot and an extension. -/
theorem length_fileName_le {q : Path} {name : String} (hname : q.normalize.fileName? = some name) :
    name.length ≤ (Path.lastOf (trunk q.normalize).toList).length + 4 := by
  obtain ⟨dir, -, hisname, hnorm⟩ := Path.normalize_split hname
  cases hs : sourceExtension? q.normalize with
  | none =>
    have htext : q.normalize.text.toList = dir.prefixText.toList ++ name.toList := by
      rw [hnorm]
      exact String.toList_append
    have htrunk : trunk q.normalize = q.normalize.text := by rw [trunk, hs]
    rw [htrunk, htext, Path.lastOf_append (Path.isLead_prefixText dir) hisname.noSlash,
      String.length_toList]
    exact Nat.le_add_right _ _
  | some e =>
    obtain ⟨dir', name', -, hisname', -, hname', -, hsplit, htrunk⟩ := split_of_sourceExtension hs
    obtain rfl : name = name' := Option.some.inj (hname.symm.trans hname')
    have hstem : '/' ∉ (Path.cutName name).1.toList := by
      intro hmem
      refine hisname'.noSlash ?_
      rw [hsplit, String.toList_append]
      exact List.mem_append_left _ hmem
    have hshort : ∀ e ∈ sourceExtensions, e.length ≤ 3 := by decide
    have he : e.length ≤ 3 := by
      rw [sourceExtension?, Option.filter_eq_some_iff] at hs
      exact hshort e (List.contains_iff_mem.mp hs.2)
    have hlength := congrArg String.length hsplit
    rw [String.length_append, String.length_append] at hlength
    have hdot : ".".length = 1 := rfl
    rw [htrunk, String.toList_append, Path.lastOf_append (Path.isLead_prefixText dir') hstem,
      String.length_toList]
    omega

/-- What is named after a file is not known by the name of the file. -/
theorem NamedAfter.ne_file {q : Path} (hn : NamedAfter pid q.normalize art p) :
    p.components ≠ q.normalize.components := by
  intro heq
  obtain ⟨lead, htext, hlead, hname⟩ := hn.endsIn
  have hderived := Path.fileName?_of_split htext hlead hname
  rw [String.ofList_toList] at hderived
  have hfile : q.normalize.fileName? = p.fileName? := by
    rw [Path.fileName?, Path.fileName?, heq]
  have hle := length_fileName_le (hfile.trans hderived)
  have htoken : "-hbcxx-".toList.length ≤ (token pid).length := by
    rw [← String.length_toList, toList_token, List.length_append]
    exact Nat.le_add_right _ _
  have hseven : "-hbcxx-".toList.length = 7 := by decide
  rw [String.length_append, String.length_append, String.length_ofList] at hle
  omega

end NamedAfter

/-- The copy of a unit is named after its file. -/
def Named (pid : Nat) (u : CompilationUnit) : Prop := NamedAfter pid u.path .copy u.copy

/-- The copy of a unit that has just been made is named after its file. -/
theorem named_ofPath (m : Machine) (h : Host) (kind : UnitKind) (q : Path) :
    (ofPath m h kind q).Named m.pid := ⟨trunk q.normalize, copyPath_normalize m.pid q, rfl⟩

/-- Every place that is found is named after the file of the unit. -/
theorem Named.found (hn : u.Named m.pid) (hf : u.Finds m cfg d art place) :
    NamedAfter m.pid u.path art place.path := by
  obtain ⟨s, rfl⟩ := hf.site
  exact (NamedAfter.natural hn art).site m cfg.cacheRoot s

/-- After any operations the copy is named after the file of the unit. -/
theorem named_after (hn : u.Named m.pid) (ds : List Deed) : (after m cfg u ds).Named m.pid := by
  induction ds generalizing u with
  | nil => exact hn
  | cons d rest ih =>
    have hstep := d.proceeds m cfg u
    refine ih (u := (d.run m cfg u).1) ?_
    by_cases hfinds : ∃ place, u.Finds m cfg d .copy place
    · obtain ⟨place, hfinds⟩ := hfinds
      rw [Named, (hstep.placed place hfinds).2.1, hstep.path]
      exact hn.found hfinds
    · rw [Named, (hstep.unplaced fun place h => hfinds ⟨place, h⟩).1, hstep.path]
      exact hn

/-- Whatever some operations have found a place for is named after the file of the unit. -/
theorem Found.namedAfter (hn : u.Named m.pid) (hf : u.Found m cfg ds art p) :
    NamedAfter m.pid u.path art p := by
  obtain ⟨earlier, d, later, place, -, hfinds, rfl⟩ := hf
  have hnamed := (named_after hn earlier).found hfinds
  rwa [(after_same u earlier).1] at hnamed

end CxxScript.CompilationUnit

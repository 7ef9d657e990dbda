import CxxScript.Proofs.Build.Order
import CxxScript.Proofs.Host.Resolution

/-!
# The key of a unit

A file is known by a key: where it really is, and if it is nowhere, where it would be if no link
were on the way. The first of these tells the files apart, and where there is no link the two of
them agree. So the key of a path is what it collapses to, whether or not its file is there, and does
not change when files come and go: `same_iff_one_place`.
-/

set_option autoImplicit false

namespace CxxScript

namespace Files

variable {fs fs' : Files} {wd : WorkingDir} {p : Path} {cs : List Path.Component}

/-- Where there is no link, a path is known by what its absolute components collapse to. -/
theorem identity_linkless (hfs : fs.Linkless)
    (hp : p.absolute? (fs.workingLocation? wd) = some cs) :
    fs.identity wd p = Path.collapsed cs := by
  have hcs : p.lexicalComponents (fs.workingLocation? wd) = cs := by
    rw [Path.lexicalComponents, hp, Option.getD_some]
  have hkey : p.lexicalKey (fs.workingLocation? wd) = Path.collapsed cs :=
    congrArg Path.collapsed hcs
  rw [← hkey]
  unfold identity
  cases hloc : fs.canonical? wd p with
  | none => rfl
  | some loc =>
    rw [Path.lexicalKey_of_absolute (by rw [hp]; rfl)]
    exact congrArg Location.path (canonical?_linkless hfs hloc)

/-! ## Files that come and go -/

/-- From `fs` to `fs'` no directory is lost, and no link has come. -/
structure KeepsDirectories (fs fs' : Files) : Prop where
  removed : fs'.removed = fs.removed
  directory : ∀ {at_ : Location}, fs.get? at_ = some .directory → fs'.get? at_ = some .directory
  link : ∀ {at_ : Location} {target : String}, fs'.get? at_ = some (.link target) →
    fs.get? at_ = some (.link target)

namespace KeepsDirectories

/-- Nothing happens at all. -/
theorem refl (fs : Files) : KeepsDirectories fs fs := ⟨rfl, id, id⟩

/-- One stretch after the other. -/
theorem trans {fs'' : Files} (h : KeepsDirectories fs fs') (h' : KeepsDirectories fs' fs'') :
    KeepsDirectories fs fs'' :=
  ⟨h'.removed.trans h.removed, fun hd => h'.directory (h.directory hd),
    fun hl => h.link (h'.link hl)⟩

/-- Where there was no link, there is none. -/
theorem linkless (h : KeepsDirectories fs fs') (hfs : fs.Linkless) : fs'.Linkless :=
  fun at_ target hlink => hfs at_ target (h.link hlink)

/-- A path that is absolute seen from the working directory still is, in the same way. -/
theorem absolute? (h : KeepsDirectories fs fs')
    (hp : p.absolute? (fs.workingLocation? wd) = some cs) :
    p.absolute? (fs'.workingLocation? wd) = some cs := by
  unfold Path.absolute? at hp ⊢
  split at hp
  · cases hp
  · next hempty =>
    rw [if_neg hempty]
    split at hp
    · next habsolute => rwa [if_pos habsolute]
    · next hrelative =>
      rw [if_neg hrelative]
      obtain ⟨at_, hat, hcs⟩ := Option.map_eq_some_iff.mp hp
      obtain ⟨rfl, hgone, hget⟩ := workingLocation?_eq_some_iff.mp hat
      have hgone' : fs'.isGone wd wd.at_ = false := by rwa [isGone, h.removed]
      rw [workingLocation?_eq_some_iff.mpr ⟨rfl, hgone', h.directory hget⟩]
      exact congrArg some hcs

end KeepsDirectories

/-- Where only regular files and new directories make a difference, the directories are kept. -/
theorem SameWays.keepsDirectories (h : SameWays fs fs') : KeepsDirectories fs fs' :=
  ⟨h.removed, fun hd => h.kept hd rfl, h.link⟩

/-- What is no directory may be taken away. -/
theorem keepsDirectories_erase {at_ : Location} (h : fs.get? at_ ≠ some .directory) :
    KeepsDirectories fs (fs.erase at_) := by
  refine ⟨rfl, fun {b} hb => ?_, fun {b target} hb => ?_⟩
  · by_cases hn : b = []
    · subst hn
      exact get?_nil _
    · have hne : b ≠ at_ := by
        rintro rfl
        exact h hb
      rw [get?_erase fs at_ b hn, if_neg hne, hb]
  · obtain ⟨e', he', hbecomes⟩ := (grows_of_erase fs at_).kept hb
    rw [he', hbecomes.eq_of_not_file rfl]

/-- Removing a file keeps the directories. -/
theorem keepsDirectories_remove (h : fs.remove wd p = .ok fs') : KeepsDirectories fs fs' := by
  obtain ⟨at_, e, hl, he, rfl⟩ := remove_eq_ok h
  obtain ⟨-, -, -, hf⟩ := locate_eq_ok hl
  refine keepsDirectories_erase fun hdir => ?_
  rw [get?_of_follow hf he] at hdir
  exact he (Option.some.inj hdir)

end Files

namespace Host

/-- Adding bytes to a file keeps the directories. -/
theorem keepsDirectories_append (at_ : Location) (bytes : Bytes) (h : Host) :
    Leads (append at_ bytes) h fun _ h' => h.files.KeepsDirectories h'.files := by
  unfold append
  rw [leads_bind, leads_get]
  split
  · split
    · exact .refl _
    · exact .refl _
  · refine relates_change (.refl _) fun {a fs} hs => ?_
    cases ha : h.files.append at_ bytes with
    | error e => rw [ha] at hs; cases hs
    | ok fs' =>
      rw [ha] at hs
      cases hs
      have hadds : h.files.Adds ([] : Location) [] fs := Files.adds_append ha
      exact hadds.ways.keepsDirectories

/-- Writing a file keeps the directories. -/
theorem keepsDirectories_write (m : Machine) (p : Path) (bytes : Bytes) (h : Host) :
    Leads (write m p bytes) h fun _ h' => h.files.KeepsDirectories h'.files := by
  unfold write
  have hcreate : Leads (create m p) h fun _ h₁ => h.files.KeepsDirectories h₁.files :=
    relates_change (.refl _) fun hs => (Files.adds_create hs).ways.keepsDirectories
  refine Leads.bind hcreate fun r h₁ hkeeps => ?_
  cases r with
  | error cause => exact hkeeps
  | ok at_ => exact (keepsDirectories_append at_ bytes h₁).mono fun _ _ => hkeeps.trans

end Host

/-- A change that a host makes to one of its files, or to the directories that lead to one. -/
inductive FileChange where
  | openAppend (p : Path)
  | write (p : Path) (bytes : Bytes)
  | makeDirectories (p : Path)
  | remove (p : Path)

/-- The host after a change, whether or not it went well. -/
def FileChange.perform (m : Machine) (h : Host) : FileChange → Host
  | .openAppend p => ((Host.openAppend m p).run h).2
  | .write p bytes => ((Host.write m p bytes).run h).2
  | .makeDirectories p => ((Host.makeDirectories m p).run h).2
  | .remove p => ((Host.remove m p).run h).2

/-- One change keeps the directories and brings no link. -/
theorem FileChange.keepsDirectories (m : Machine) (h : Host) (change : FileChange) :
    h.files.KeepsDirectories (change.perform m h).files := by
  cases change with
  | openAppend p =>
    exact Host.relates_change (.refl _) fun hs => (Files.adds_openAppend hs).ways.keepsDirectories
  | write p bytes => exact Host.keepsDirectories_write m p bytes h
  | makeDirectories p => exact (Files.adds_makeDirectories p).ways.keepsDirectories
  | remove p =>
    rcases Host.run_remove m p h with ⟨fs, hremove, hrun⟩ | ⟨cause, -, hrun⟩
    · rw [FileChange.perform, hrun]
      exact Files.keepsDirectories_remove hremove
    · rw [FileChange.perform, hrun]
      exact .refl _

/-- Any number of changes do. -/
theorem FileChange.foldl_keepsDirectories (m : Machine) (h : Host) (changes : List FileChange) :
    h.files.KeepsDirectories (changes.foldl (FileChange.perform m) h).files := by
  induction changes generalizing h with
  | nil => exact .refl _
  | cons change rest ih => exact (change.keepsDirectories m h).trans (ih (change.perform m h))

namespace CompilationUnit

/-- Two files that exist are one unit just when they are at one place, however their paths are
spelled. Where there is no link, the key of a path is what its absolute components collapse to,
whether or not its file exists, and files that are made, written and removed do not change it. -/
theorem same_iff_one_place (m : Machine) (h : Host) (hcwd : Path.IsNamed m.cwd) :
    (∀ (p q : Path) (kind kind' : UnitKind) (a b : Location),
      h.files.canonical? m.cwd p = some a → h.files.canonical? m.cwd q = some b →
        ((ofPath m h kind p).same (ofPath m h kind' q) = true ↔ a = b)) ∧
    (h.files.Linkless → ∀ (p : Path) (cs : List Path.Component),
      p.absolute? (h.files.workingLocation? m.cwd) = some cs →
        h.identity m p = Path.collapsed cs ∧
        Path.collapsed cs = (Path.collapse cs).path ∧
        (∀ kind, (ofPath m h kind p).identity = Path.collapsed cs) ∧
        ∀ changes : List FileChange,
          (changes.foldl (FileChange.perform m) h).identity m p = Path.collapsed cs) := by
  constructor
  · intro p q kind kind' a b hp hq
    have hkey : ∀ {p : Path} {kind : UnitKind} {a : Location},
        h.files.canonical? m.cwd p = some a → (ofPath m h kind p).identity = a.path := by
      intro p kind a hp
      rw [ofPath, Host.identity, Files.identity, Files.canonical?_normalize hp]
    rw [same, hkey hp, hkey hq, beq_iff_eq]
    exact Path.path_inj (Files.isNamed_canonical? hcwd hp) (Files.isNamed_canonical? hcwd hq)
  · intro hfs p cs hp
    have hempty : p.text ≠ "" := by
      rintro htext
      rw [Path.absolute?, htext] at hp
      cases hp
    have hnormalize := (Path.absolute?_normalize hempty _).trans hp
    refine ⟨Files.identity_linkless hfs hp, ?_, fun kind => Files.identity_linkless hfs hnormalize,
      fun changes => ?_⟩
    · have hkey := Path.lexicalKey_of_absolute (by rw [hp]; rfl)
      rwa [Path.lexicalKey, Path.lexicalComponents, hp] at hkey
    · have hkeeps := FileChange.foldl_keepsDirectories m h changes
      exact Files.identity_linkless (hkeeps.linkless hfs) (hkeeps.absolute? hp)

/-- The host of a directory with two files. -/
def workshop : Host where
  files :=
    { entries := [
        (["w"], .directory), (["w", "a.cpp"], .file [] false), (["w", "b.cpp"], .file [] false)] }

/-- Two spellings of the first file are one unit there, and the second file is another. A path to
the first one through a directory that is missing has its key all the same, before and after the
file is removed and written again. -/
theorem same_iff_one_place_workshop :
    (ofPath (Build.idleMachine ["w"] 7) workshop .source ⟨"a.cpp"⟩).same
        (ofPath (Build.idleMachine ["w"] 7) workshop .header ⟨"../w//./a.cpp"⟩) = true ∧
      (ofPath (Build.idleMachine ["w"] 7) workshop .source ⟨"a.cpp"⟩).same
        (ofPath (Build.idleMachine ["w"] 7) workshop .source ⟨"b.cpp"⟩) = false ∧
      workshop.identity (Build.idleMachine ["w"] 7) ⟨"x/../a.cpp"⟩ = ⟨"/w/a.cpp"⟩ ∧
      ([.remove ⟨"a.cpp"⟩, .write ⟨"a.cpp"⟩ [65]].foldl
        (FileChange.perform (Build.idleMachine ["w"] 7)) workshop).identity
          (Build.idleMachine ["w"] 7) ⟨"x/../a.cpp"⟩ = ⟨"/w/a.cpp"⟩ := by
  obtain ⟨hsame, hkey⟩ := same_iff_one_place (Build.idleMachine ["w"] 7) workshop (by decide)
  have hfirst : ∀ p : Path, p = ⟨"a.cpp"⟩ ∨ p = ⟨"../w//./a.cpp"⟩ →
      workshop.files.canonical? (["w"] : Location) p = some ["w", "a.cpp"] := by
    rintro p (rfl | rfl) <;> decide +kernel
  have hsecond : workshop.files.canonical? (["w"] : Location) ⟨"b.cpp"⟩ = some ["w", "b.cpp"] := by
    decide +kernel
  have hlinkless : workshop.files.Linkless := by
    refine Files.linkless_of_entries fun e he target => ?_
    simp only [workshop, List.mem_cons, List.not_mem_nil, or_false] at he
    rcases he with rfl | rfl | rfl <;> exact nofun
  obtain ⟨hhere, -, -, hstays⟩ := hkey hlinkless ⟨"x/../a.cpp"⟩
    [.root, .name "w", .name "x", .up, .name "a.cpp"] (by decide +kernel)
  have hcollapsed : Path.collapsed [.root, .name "w", .name "x", .up, .name "a.cpp"] =
      ⟨"/w/a.cpp"⟩ := by decide
  refine ⟨?_, ?_, hhere.trans hcollapsed, (hstays _).trans hcollapsed⟩
  · exact (hsame _ _ _ _ _ _ (hfirst _ (.inl rfl)) (hfirst _ (.inr rfl))).mpr rfl
  · rw [← Bool.not_eq_true, hsame _ _ _ _ _ _ (hfirst _ (.inl rfl)) hsecond]
    decide

end CompilationUnit

end CxxScript

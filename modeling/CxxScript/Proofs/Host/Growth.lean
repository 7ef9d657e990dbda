import CxxScript.Host.Access

/-!
# Files that only grow

Finding a place for a derived file, and writing it, adds entries and changes the content of regular
files; it never takes an entry away and never turns one into something else. `Files.Grows` says so,
and `walk_grows` what follows for paths: one that leads somewhere goes on leading there. So the real
location of a file is settled once there is one, `canonical?_grows`, and one path has at most three
keys, `identity_mem_keys`.
-/

set_option autoImplicit false

namespace CxxScript

/-- What an entry may turn into while files grow: a regular file may get another content. -/
def Entry.Becomes (e e' : Entry) : Prop := e' = e ∨ (e.isFile = true ∧ e'.isFile = true)

namespace Entry

/-- Whether an entry has content to be read: a regular file or a device. -/
def isReadable : Entry → Bool
  | .file .. | .device _ => true
  | .directory | .link _ => false

/-- An entry may stay as it is. -/
theorem Becomes.refl (e : Entry) : e.Becomes e := Or.inl rfl

/-- One change after the other is a change. -/
theorem Becomes.trans {a b c : Entry} (h : a.Becomes b) (h' : b.Becomes c) : a.Becomes c := by
  rcases h with rfl | ⟨ha, hb⟩
  · exact h'
  · rcases h' with rfl | ⟨-, hc⟩
    · exact Or.inr ⟨ha, hb⟩
    · exact Or.inr ⟨ha, hc⟩

/-- Only a regular file changes. -/
theorem Becomes.eq_of_not_file {e e' : Entry} (h : e.Becomes e') (he : e.isFile = false) :
    e' = e := by
  rcases h with h | ⟨hf, -⟩
  · exact h
  · rw [he] at hf; cases hf

end Entry

namespace Files

/-- The files `fs'` have everything that `fs` has, and the same directories have been removed. -/
structure Grows (fs fs' : Files) : Prop where
  removed : fs'.removed = fs.removed
  kept : ∀ {at_ : Location} {e : Entry}, fs.get? at_ = some e →
    ∃ e', fs'.get? at_ = some e' ∧ e.Becomes e'

namespace Grows

/-- Files grow when nothing happens to them. -/
theorem refl (fs : Files) : Grows fs fs := ⟨rfl, fun h => ⟨_, h, .refl _⟩⟩

/-- Growth upon growth is growth. -/
theorem trans {a b c : Files} (h : Grows a b) (h' : Grows b c) : Grows a c := by
  refine ⟨h'.removed.trans h.removed, fun hg => ?_⟩
  obtain ⟨e', he', hb⟩ := h.kept hg
  obtain ⟨e'', he'', hb'⟩ := h'.kept he'
  exact ⟨e'', he'', hb.trans hb'⟩

/-- A directory stays one. -/
theorem directory {fs fs' : Files} (h : Grows fs fs') {at_ : Location}
    (hd : fs.get? at_ = some .directory) : fs'.get? at_ = some .directory := by
  obtain ⟨e', he', hb⟩ := h.kept hd
  rw [he', hb.eq_of_not_file rfl]

/-- A directory that is gone stays gone, and no other goes. -/
theorem isGone {fs fs' : Files} (h : Grows fs fs') (wd : WorkingDir) (at_ : Location) :
    fs'.isGone wd at_ = fs.isGone wd at_ := by
  simp only [Files.isGone, h.removed]

end Grows

/-- Putting an entry where there is none makes the files grow. -/
theorem grows_set_of_none {fs : Files} {at_ : Location} (entry : Entry)
    (h : fs.get? at_ = none) : Grows fs (fs.set at_ entry) := by
  refine ⟨rfl, fun {b e} hb => ?_⟩
  by_cases hn : b = []
  · subst hn
    rw [get?_nil] at hb ⊢
    exact ⟨_, rfl, Option.some.inj hb ▸ .refl _⟩
  · have hne : b ≠ at_ := by
      rintro rfl
      rw [h] at hb
      cases hb
    exact ⟨e, by rw [get?_set fs at_ b entry hn, if_neg hne, hb], .refl _⟩

/-- Without an entry the files are what they grow from when it comes back. -/
theorem grows_of_erase (fs : Files) (at_ : Location) : Grows (fs.erase at_) fs := by
  refine ⟨rfl, fun {b e} hb => ?_⟩
  by_cases hn : b = []
  · subst hn
    exact ⟨e, hb, .refl _⟩
  · rw [get?_erase fs at_ b hn] at hb
    split at hb
    · cases hb
    · exact ⟨e, hb, .refl _⟩

/-- What is removed is what the path leads to without the slashes at its end, and no directory. -/
theorem remove_eq_ok {fs fs' : Files} {wd : WorkingDir} {p : Path} (h : fs.remove wd p = .ok fs') :
    ∃ at_ e, fs.locate wd .linkItself (bare p) = .ok (.present at_ e) ∧ e ≠ .directory ∧
      fs' = fs.erase at_ := by
  unfold remove at h
  split at h
  · cases h
  · next at_ e hdir hl =>
    split at h
    · cases h
      refine ⟨at_, e, hl, ?_, rfl⟩
      rintro rfl
      exact hdir rfl
    · cases h
  · cases h
  · cases h

/-- Giving a regular file another content makes the files grow. -/
theorem grows_set_file {fs : Files} {at_ : Location} {old entry : Entry}
    (h : fs.get? at_ = some old) (ho : old.isFile = true) (hf : entry.isFile = true) :
    Grows fs (fs.set at_ entry) := by
  refine ⟨rfl, fun {b e} hb => ?_⟩
  by_cases hn : b = []
  · subst hn
    rw [get?_nil] at hb ⊢
    exact ⟨_, rfl, Option.some.inj hb ▸ .refl _⟩
  · by_cases hat : b = at_
    · subst hat
      refine ⟨entry, by rw [get?_set fs b b entry hn, if_pos rfl], Or.inr ⟨?_, hf⟩⟩
      rw [h] at hb
      exact Option.some.inj hb ▸ ho
    · exact ⟨e, by rw [get?_set fs at_ b entry hn, if_neg hat, hb], .refl _⟩

/-! ## Following paths in growing files -/

section Walking

variable {fs fs' : Files} {purpose : Purpose}
  {along along' : Location → List String → Except Errno Found} {at_ : Location}
  {todo : List String} {loc : Location} {e : Entry}

/-- A walk goes on into what is neither missing nor a link. -/
theorem walkWith_into {name : String} {rest : List String} {entry : Entry}
    (hget : fs.get? at_ = some .directory)
    (hskip : ¬(decide (name = "") || decide (name = ".")) = true) (hup : ¬name = "..")
    (hmake : ¬(decide (purpose = .creation) && !rest.isEmpty && rest.all String.isEmpty) = true)
    (hlong : ¬name.utf8ByteSize > maxNameBytes) (hentry : fs.get? (at_ ++ [name]) = some entry)
    (hlink : ∀ target, entry = .link target → False) :
    fs.walkWith purpose along at_ (name :: rest) =
      fs.walkWith purpose along (at_ ++ [name]) rest := by
  rw [walkWith, hget]
  simp only [hskip, hup, hmake, hlong, Bool.false_eq_true, if_false]
  cases entry with
  | link target => exact (hlink target rfl).elim
  | file content executable => simp only [hentry]
  | directory => simp only [hentry]
  | device d => simp only [hentry]

/-- A walk that arrives somewhere arrives there in grown files too, when this is so along links. -/
theorem walkWith_grows (h : Grows fs fs')
    (halong : ∀ at_ todo loc e, along at_ todo = .ok (.present loc e) →
      ∃ e', along' at_ todo = .ok (.present loc e') ∧ e.Becomes e')
    (hw : fs.walkWith purpose along at_ todo = .ok (.present loc e)) :
    ∃ e', fs'.walkWith purpose along' at_ todo = .ok (.present loc e') ∧ e.Becomes e' := by
  fun_induction walkWith fs purpose along at_ todo with
  | case1 at_ entry hget =>
    cases hw
    obtain ⟨e', he', hb⟩ := h.kept hget
    exact ⟨e', by rw [walkWith, he'], hb⟩
  | case2 => cases hw
  | case3 => cases hw
  | case4 at_ name rest hget hskip ih =>
    obtain ⟨e', he', hb⟩ := ih hw
    exact ⟨e', by rw [walkWith, h.directory hget]; simp only [hskip, if_true, he'], hb⟩
  | case5 at_ rest hget hskip ih =>
    obtain ⟨e', he', hb⟩ := ih hw
    exact ⟨e', by rw [walkWith, h.directory hget]; simpa using he', hb⟩
  | case6 => cases hw
  | case7 => cases hw
  | case8 => cases hw
  | case9 => cases hw
  | case10 at_ name rest hget h₁ h₂ h₃ h₄ target hlink hlast =>
    cases hw
    obtain ⟨e', he', hb⟩ := h.kept hlink
    have he'' := hb.eq_of_not_file rfl
    subst he''
    exact ⟨_, by rw [walkWith, h.directory hget]; simp only [h₁, h₂, h₃, h₄, he', hlast, if_true,
      Bool.false_eq_true, if_false], .refl _⟩
  | case11 at_ name rest hget h₁ h₂ h₃ h₄ target hlink hlast =>
    obtain ⟨e', he', hb⟩ := halong _ _ _ _ hw
    obtain ⟨l', hl', hlb⟩ := h.kept hlink
    have hl'' := hlb.eq_of_not_file rfl
    subst hl''
    exact ⟨e', by rw [walkWith, h.directory hget]; simp only [h₁, h₂, h₃, h₄, hl', hlast,
      Bool.false_eq_true, if_false, he'], hb⟩
  | case12 at_ name rest hget h₁ h₂ h₃ h₄ entry hnot hentry ih =>
    obtain ⟨e', he', hb⟩ := ih hw
    obtain ⟨new, hnew, hn⟩ := h.kept hentry
    have hlink : ∀ target, new = .link target → False := by
      rintro target rfl
      rcases hn with hn | ⟨-, hf⟩
      · exact hnot target hn.symm
      · cases hf
    exact ⟨e', (walkWith_into (h.directory hget) h₁ h₂ h₃ h₄ hnew hlink).trans he', hb⟩
  | case13 => cases hw

/-- A walk that arrives somewhere arrives there in grown files too. -/
theorem walk_grows (h : Grows fs fs') {links : Nat}
    (hw : fs.walk purpose links at_ todo = .ok (.present loc e)) :
    ∃ e', fs'.walk purpose links at_ todo = .ok (.present loc e') ∧ e.Becomes e' := by
  induction links generalizing at_ todo loc e with
  | zero => exact walkWith_grows h (by intro _ _ _ _ hnone; cases hnone) hw
  | succ links ih => exact walkWith_grows h (fun _ _ _ _ => ih) hw

/-- What a walk arrives at is there, when this is so along links. -/
theorem get?_of_walkWith
    (halong : ∀ at_ todo loc e, along at_ todo = .ok (.present loc e) → fs.get? loc = some e)
    (hw : fs.walkWith purpose along at_ todo = .ok (.present loc e)) : fs.get? loc = some e := by
  fun_induction walkWith fs purpose along at_ todo with
  | case1 at_ entry hget => cases hw; exact hget
  | case4 _ _ _ _ _ ih => exact ih hw
  | case5 _ _ _ _ ih => exact ih hw
  | case10 _ _ _ _ _ _ _ _ _ hlink _ => cases hw; exact hlink
  | case11 => exact halong _ _ _ _ hw
  | case12 _ _ _ _ _ _ _ _ _ _ _ ih => exact ih hw
  | _ => cases hw

/-- What a walk arrives at is there. -/
theorem get?_of_walk {links : Nat}
    (hw : fs.walk purpose links at_ todo = .ok (.present loc e)) : fs.get? loc = some e := by
  induction links generalizing at_ todo loc e with
  | zero => exact get?_of_walkWith (by intro _ _ _ _ hnone; cases hnone) hw
  | succ links ih => exact get?_of_walkWith (fun _ _ _ _ => ih) hw

/-- The free name that a walk arrives at is free, when this is so along links. -/
theorem get?_of_walkWith_missing
    (halong : ∀ at_ todo loc, along at_ todo = .ok (.missing loc) → fs.get? loc = none)
    (hw : fs.walkWith purpose along at_ todo = .ok (.missing loc)) : fs.get? loc = none := by
  fun_induction walkWith fs purpose along at_ todo with
  | case4 _ _ _ _ _ ih => exact ih hw
  | case5 _ _ _ _ ih => exact ih hw
  | case8 _ _ _ _ _ _ _ _ hnone _ => cases hw; exact hnone
  | case11 => exact halong _ _ _ hw
  | case12 _ _ _ _ _ _ _ _ _ _ _ ih => exact ih hw
  | _ => cases hw

/-- The free name that a walk arrives at is free. -/
theorem get?_of_walk_missing {links : Nat}
    (hw : fs.walk purpose links at_ todo = .ok (.missing loc)) : fs.get? loc = none := by
  induction links generalizing at_ todo loc with
  | zero => exact get?_of_walkWith_missing (by intro _ _ _ hnone; cases hnone) hw
  | succ links ih => exact get?_of_walkWith_missing (fun _ _ _ => ih) hw

end Walking

/-- The way out of a directory that is gone is the same in grown files. -/
theorem Grows.emerge {fs fs' : Files} (h : Grows fs fs') (wd : WorkingDir) (at_ : Location)
    (todo : List String) : fs'.emerge wd at_ todo = fs.emerge wd at_ todo := by
  induction todo generalizing at_ with
  | nil => rfl
  | cons name rest ih => simp only [Files.emerge, h.isGone, ih]

/-- A path text that leads somewhere leads there in grown files too. -/
theorem follow_grows {fs fs' : Files} (h : Grows fs fs') {wd : WorkingDir} {purpose : Purpose}
    {text : String} {loc : Location} {e : Entry}
    (hf : fs.follow wd purpose text = .ok (.present loc e)) :
    ∃ e', fs'.follow wd purpose text = .ok (.present loc e') ∧ e.Becomes e' := by
  unfold follow at hf ⊢
  by_cases habs : (⟨text⟩ : Path).isAbsolute = true
  · rw [if_pos habs] at hf ⊢
    exact walk_grows h hf
  · rw [if_neg habs] at hf ⊢
    rw [h.emerge]
    rcases hem : fs.emerge wd wd.at_ (names text) with err | ⟨at_, todo⟩
    · rw [hem] at hf; cases hf
    · rw [hem] at hf
      cases todo with
      | cons name rest => exact walk_grows h hf
      | nil =>
        simp only [h.isGone] at hf ⊢
        by_cases hgone : fs.isGone wd at_ = true
        · rw [if_pos hgone] at hf ⊢
          cases hf
          exact ⟨_, rfl, .refl _⟩
        · rw [if_neg hgone] at hf ⊢
          exact walk_grows h hf

/-- What a path text leads to is there, unless it is a directory that is gone. -/
theorem get?_of_follow {fs : Files} {wd : WorkingDir} {purpose : Purpose} {text : String}
    {loc : Location} {e : Entry} (hf : fs.follow wd purpose text = .ok (.present loc e))
    (he : e ≠ .directory) : fs.get? loc = some e := by
  unfold follow at hf
  split at hf
  · exact get?_of_walk hf
  · split at hf
    · cases hf
    · split at hf
      · cases hf
        exact absurd rfl he
      · exact get?_of_walk hf
    · exact get?_of_walk hf

/-- The free name that a path text leads to is free. -/
theorem get?_of_follow_missing {fs : Files} {wd : WorkingDir} {purpose : Purpose} {text : String}
    {loc : Location} (hf : fs.follow wd purpose text = .ok (.missing loc)) :
    fs.get? loc = none := by
  unfold follow at hf
  split at hf
  · exact get?_of_walk_missing hf
  · split at hf
    · cases hf
    · split at hf
      · cases hf
      · exact get?_of_walk_missing hf
    · exact get?_of_walk_missing hf

/-- A path that can be followed is a text of bounded length that is no empty and holds no NUL. -/
theorem locate_eq_ok {fs : Files} {wd : WorkingDir} {purpose : Purpose} {p : Path} {found : Found}
    (h : fs.locate wd purpose p = .ok found) :
    p.text.toList.contains '\x00' = false ∧ p.text.isEmpty = false ∧
      p.text.utf8ByteSize ≤ maxPathBytes ∧ fs.follow wd purpose p.text = .ok found := by
  unfold locate at h
  by_cases hnul : p.text.toList.contains '\x00' = true
  · rw [if_pos hnul] at h; cases h
  by_cases hempty : p.text.isEmpty = true
  · rw [if_neg hnul, if_pos hempty] at h; cases h
  by_cases hlong : p.text.utf8ByteSize > maxPathBytes
  · rw [if_neg hnul, if_neg hempty, if_pos hlong] at h; cases h
  rw [if_neg hnul, if_neg hempty, if_neg hlong] at h
  refine ⟨Bool.eq_false_iff.mpr hnul, Bool.eq_false_iff.mpr hempty, by omega, ?_⟩
  cases hf : fs.follow wd purpose p.text with
  | error e => rw [hf] at h; cases h
  | ok found' => rw [hf] at h; cases h; rfl

/-- A path that leads somewhere leads there in grown files too. -/
theorem locate_grows {fs fs' : Files} (h : Grows fs fs') {wd : WorkingDir} {purpose : Purpose}
    {p : Path} {at_ : Location} {e : Entry} (hl : fs.locate wd purpose p = .ok (.present at_ e)) :
    ∃ e', fs'.locate wd purpose p = .ok (.present at_ e') ∧ e.Becomes e' := by
  obtain ⟨hnul, hempty, hlong, hf⟩ := locate_eq_ok hl
  obtain ⟨e', hf', hb⟩ := follow_grows h hf
  refine ⟨e', ?_, hb⟩
  rw [locate, if_neg (by rw [hnul]; exact Bool.false_ne_true),
    if_neg (by rw [hempty]; exact Bool.false_ne_true), if_neg (Nat.not_lt.mpr hlong), hf']

/-- The free name that a path leads to is free. -/
theorem get?_of_locate_missing {fs : Files} {wd : WorkingDir} {purpose : Purpose} {p : Path}
    {at_ : Location} (hl : fs.locate wd purpose p = .ok (.missing at_)) : fs.get? at_ = none := by
  obtain ⟨-, -, -, hf⟩ := locate_eq_ok hl
  exact get?_of_follow_missing hf

/-! ## Real locations -/

/-- The working directory has a location when it is the one that was entered, and is a directory. -/
theorem workingLocation?_eq_some_iff {fs : Files} {wd : WorkingDir} {at_ : Location} :
    fs.workingLocation? wd = some at_ ↔
      at_ = wd.at_ ∧ fs.isGone wd wd.at_ = false ∧ fs.get? wd.at_ = some .directory := by
  unfold workingLocation? isDirectoryAt
  split
  · next h =>
    rw [Bool.and_eq_true, Bool.not_eq_true', decide_eq_true_eq] at h
    simp [h, eq_comm]
  · next h =>
    rw [Bool.and_eq_true, Bool.not_eq_true', decide_eq_true_eq] at h
    simp only [reduceCtorEq, false_iff]
    exact fun hthere => h hthere.2

/-- A working location stays where it is while files grow. -/
theorem workingLocation?_grows {fs fs' : Files} (h : Grows fs fs') {wd : WorkingDir}
    {at_ : Location} (hw : fs.workingLocation? wd = some at_) :
    fs'.workingLocation? wd = some at_ := by
  obtain ⟨rfl, hgone, hget⟩ := workingLocation?_eq_some_iff.mp hw
  exact workingLocation?_eq_some_iff.mpr
    ⟨rfl, (h.isGone wd wd.at_).trans hgone, h.directory hget⟩

/-- The working location is the one that the process has entered. -/
theorem workingLocation?_eq_none_or (fs : Files) (wd : WorkingDir) :
    fs.workingLocation? wd = none ∨ fs.workingLocation? wd = some wd.at_ := by
  unfold workingLocation?
  split
  · exact Or.inr rfl
  · exact Or.inl rfl

/-- Where a path starts: at the root or, if it can be found, in the working directory. -/
def origin? (fs : Files) (wd : WorkingDir) (p : Path) : Option Location :=
  if p.isAbsolute then some [] else fs.workingLocation? wd

section Locating

variable {fs fs' : Files} {wd : WorkingDir} {p : Path} {start loc : Location}

/-- A path starts from a directory. -/
theorem get?_origin (h : fs.origin? wd p = some start) : fs.get? start = some .directory := by
  unfold origin? at h
  split at h
  · cases h
    exact get?_nil fs
  · obtain ⟨rfl, -, hget⟩ := workingLocation?_eq_some_iff.mp h
    exact hget

/-- A path starts from the same directory when files have been added. -/
theorem origin?_grows (h : Grows fs fs') (hstart : fs.origin? wd p = some start) :
    fs'.origin? wd p = some start := by
  unfold origin? at hstart ⊢
  split at hstart
  · next habsolute => rwa [if_pos habsolute]
  · next hrelative =>
    rw [if_neg hrelative]
    exact workingLocation?_grows h hstart

/-- A path that has a start is followed by a walk from there: no way out of a working directory is
needed. -/
theorem follow_of_origin (hstart : fs.origin? wd p = some start) (purpose : Purpose) :
    fs.follow wd purpose p.text = fs.walk purpose maxLinks start (names p.text) := by
  unfold origin? at hstart
  unfold follow
  split at hstart
  · next habsolute =>
    cases hstart
    exact if_pos habsolute
  · next hrelative =>
    obtain ⟨rfl, hgone, -⟩ := workingLocation?_eq_some_iff.mp hstart
    rw [if_neg hrelative]
    cases hn : names p.text with
    | nil => exact absurd (List.map_eq_nil_iff.mp hn) (Path.pieces_ne_nil _)
    | cons name rest =>
      rw [emerge, hgone]
      rfl

/-- A path has a location when it is a text without NUL and a walk by its names leads somewhere. -/
theorem canonical?_eq_some_iff : fs.canonical? wd p = some loc ↔
    p.text ≠ "" ∧ '\x00' ∉ p.text.toList ∧ ∃ start e, fs.origin? wd p = some start ∧
      fs.walk .target maxLinks start (names p.text) = .ok (.present loc e) := by
  have horigin : (!p.isAbsolute && (fs.workingLocation? wd).isNone) = (fs.origin? wd p).isNone := by
    unfold origin?
    cases p.isAbsolute <;> rfl
  unfold canonical?
  rw [horigin]
  by_cases htext : (p.text.isEmpty || p.text.toList.contains '\x00') = true
  · rw [if_pos htext]
    rw [Bool.or_eq_true, String.isEmpty_iff, List.contains_iff_mem] at htext
    simp only [reduceCtorEq, false_iff]
    exact fun h => htext.elim h.1 h.2.1
  · rw [if_neg htext]
    rw [Bool.or_eq_true, not_or, String.isEmpty_iff, List.contains_iff_mem] at htext
    cases hstart : fs.origin? wd p with
    | none => simp
    | some start =>
      rw [Option.isNone_some, if_neg Bool.false_ne_true, follow_of_origin hstart]
      constructor
      · intro hw
        split at hw
        · next e hpresent =>
          cases hw
          exact ⟨htext.1, htext.2, start, e, rfl, hpresent⟩
        · cases hw
      · rintro ⟨-, -, start', e, hsame, hpresent⟩
        cases hsame
        rw [hpresent]

/-- Once a path has a real location it keeps it while files grow. -/
theorem canonical?_grows (h : Grows fs fs') (hc : fs.canonical? wd p = some loc) :
    fs'.canonical? wd p = some loc := by
  obtain ⟨hempty, hnul, start, e, hstart, hw⟩ := canonical?_eq_some_iff.mp hc
  obtain ⟨e', hw', -⟩ := walk_grows h hw
  exact canonical?_eq_some_iff.mpr ⟨hempty, hnul, start, e', origin?_grows h hstart, hw'⟩

/-- The real location of a path is where following it leads. -/
theorem canonical?_eq_of_locate {at_ : Location} {e : Entry} (hc : fs.canonical? wd p = some at_)
    (hl : fs.locate wd .target p = .ok (.present loc e)) : at_ = loc := by
  obtain ⟨-, -, -, hf⟩ := locate_eq_ok hl
  obtain ⟨-, -, start, e', hstart, hw⟩ := canonical?_eq_some_iff.mp hc
  rw [follow_of_origin hstart, hw] at hf
  cases hf
  rfl

end Locating

/-! ## Keys -/

/-- The keys by which a path may have been known before its file came to be where `fs` has it. -/
def keys (fs : Files) (wd : WorkingDir) (p : Path) : List Path :=
  [p.lexicalKey none, p.lexicalKey (some wd.at_), fs.identity wd p]

/-- While files grow, a path is known by one of three keys. -/
theorem identity_mem_keys {fs fs' : Files} (h : Grows fs fs') (wd : WorkingDir) (p : Path) :
    fs.identity wd p ∈ fs'.keys wd p := by
  have hlex : ∀ loc, p.lexicalKey (fs.workingLocation? wd) = loc → loc ∈ fs'.keys wd p := by
    rintro loc rfl
    rcases workingLocation?_eq_none_or fs wd with hw | hw
    · rw [hw]; simp [keys]
    · rw [hw]; simp [keys]
  cases hc : fs.canonical? wd p with
  | none => exact hlex _ (by rw [identity, hc])
  | some loc =>
    have hc' := canonical?_grows h hc
    have : fs'.identity wd p = fs.identity wd p := by rw [identity, identity, hc, hc']
    simp [keys, this]

/-! ## What can be read -/

/-- A path that can be read is followed to a regular file or a device, and where it can be resolved
at all that is its real location. -/
theorem read_eq_ok {fs : Files} {wd : WorkingDir} {p : Path} {content : Bytes}
    (h : fs.read wd p = .ok content) :
    ∃ loc e, fs.locate wd .target p = .ok (.present loc e) ∧ fs.get? loc = some e ∧
      e.isReadable = true := by
  unfold read find at h
  cases hl : fs.locate wd .target p with
  | error e => rw [hl] at h; cases h
  | ok found =>
    rw [hl] at h
    obtain ⟨-, -, -, hf⟩ := locate_eq_ok hl
    cases found with
    | missing at_ => cases h
    | present loc e =>
      cases e with
      | directory => cases h
      | link target => cases h
      | file content' executable => exact ⟨loc, _, rfl, get?_of_follow hf (by simp), rfl⟩
      | device d => exact ⟨loc, _, rfl, get?_of_follow hf (by simp), rfl⟩

/-- A path that can be read can be read in grown files too. -/
theorem read_grows {fs fs' : Files} (h : Grows fs fs') {wd : WorkingDir} {p : Path}
    {content : Bytes} (hr : fs.read wd p = .ok content) :
    ∃ content', fs'.read wd p = .ok content' := by
  obtain ⟨loc, e, hl, -, he⟩ := read_eq_ok hr
  obtain ⟨e', hl', hb⟩ := locate_grows h hl
  rw [read, find, hl]  at hr
  rw [read, find, hl']
  cases e with
  | directory => cases he
  | link target => cases he
  | device d =>
    rw [hb.eq_of_not_file rfl]
    exact ⟨content, hr⟩
  | file old executable =>
    rcases hb with rfl | ⟨-, hfile⟩
    · exact ⟨old, rfl⟩
    · cases e' with
      | file new executable' => exact ⟨new, rfl⟩
      | directory => cases hfile
      | link target => cases hfile
      | device d => cases hfile

/-! ## The operations under which files grow -/

/-- Making an entry at a free location. -/
theorem grows_make {fs fs' : Files} {at_ : Location} {entry : Entry} (h : fs.get? at_ = none)
    (hm : fs.make at_ entry = .ok fs') : Grows fs fs' := by
  unfold make at hm
  split at hm
  · cases hm
  · cases hm
  · cases hm
  · cases hm
    exact grows_set_of_none entry h

/-- What has been opened for appending was there, a regular file or a device, and nothing has
changed, or its name was free and an empty file has been made. -/
theorem openAppend_eq_ok {fs fs' : Files} {wd : WorkingDir} {p : Path} {at_ : Location}
    (h : fs.openAppend wd p = .ok (at_, fs')) :
    (∃ e, fs.locate wd .creation p = .ok (.present at_ e) ∧
      (e.isFile = true ∨ ∃ d, e = .device d ∧ d.opening = .ok ()) ∧ fs' = fs) ∨
    fs.locate wd .creation p = .ok (.missing at_) ∧ fs.make at_ (.file [] false) = .ok fs' := by
  unfold openAppend at h
  split at h
  · next hl =>
    cases h
    exact .inl ⟨_, hl, .inl rfl, rfl⟩
  · next d hl =>
    cases hd : d.opening with
    | error e => rw [hd] at h; cases h
    | ok _ =>
      rw [hd] at h
      cases h
      exact .inl ⟨_, hl, .inr ⟨d, rfl, hd⟩, rfl⟩
  · cases h
  · next loc hl =>
    cases hm : fs.make loc (.file [] false) with
    | error e => rw [hm] at h; cases h
    | ok made =>
      rw [hm] at h
      cases h
      exact .inr ⟨hl, hm⟩
  · cases h

/-- Opening a file for appending. -/
theorem grows_openAppend {fs fs' : Files} {wd : WorkingDir} {p : Path} {at_ : Location}
    (h : fs.openAppend wd p = .ok (at_, fs')) : Grows fs fs' := by
  rcases openAppend_eq_ok h with ⟨e, -, -, rfl⟩ | ⟨hl, hm⟩
  · exact .refl _
  · exact grows_make (get?_of_locate_missing hl) hm

/-- What has been opened to be written from its start was a regular file and is empty, or was a
device and nothing has changed, or its name was free and an empty file has been made. -/
theorem create_eq_ok {fs fs' : Files} {wd : WorkingDir} {p : Path} {at_ : Location}
    (h : fs.create wd p = .ok (at_, fs')) :
    (∃ content executable,
      fs.locate wd .creation p = .ok (.present at_ (.file content executable)) ∧
      fs' = fs.set at_ (.file [] executable)) ∨
    (∃ d, fs.locate wd .creation p = .ok (.present at_ (.device d)) ∧ d.opening = .ok () ∧
      fs' = fs) ∨
    fs.locate wd .creation p = .ok (.missing at_) ∧ fs.make at_ (.file [] false) = .ok fs' := by
  unfold create at h
  split at h
  · next content executable hl =>
    cases h
    exact .inl ⟨content, executable, hl, rfl⟩
  · next d hl =>
    cases hd : d.opening with
    | error e => rw [hd] at h; cases h
    | ok _ =>
      rw [hd] at h
      cases h
      exact .inr (.inl ⟨d, hl, hd, rfl⟩)
  · cases h
  · next loc hl =>
    cases hm : fs.make loc (.file [] false) with
    | error e => rw [hm] at h; cases h
    | ok made =>
      rw [hm] at h
      cases h
      exact .inr (.inr ⟨hl, hm⟩)
  · cases h

/-- Creating a file, or emptying the one that is there. -/
theorem grows_create {fs fs' : Files} {wd : WorkingDir} {p : Path} {at_ : Location}
    (h : fs.create wd p = .ok (at_, fs')) : Grows fs fs' := by
  rcases create_eq_ok h with ⟨content, executable, hl, rfl⟩ | ⟨d, -, -, rfl⟩ | ⟨hl, hm⟩
  · obtain ⟨-, -, -, hf⟩ := locate_eq_ok hl
    exact grows_set_file (get?_of_follow hf (by simp)) rfl rfl
  · exact .refl _
  · exact grows_make (get?_of_locate_missing hl) hm

/-- Adding bytes to what has been opened. -/
theorem grows_append {fs fs' : Files} {at_ : Location} {bytes : Bytes}
    (h : fs.append at_ bytes = .ok fs') : Grows fs fs' := by
  unfold append at h
  split at h
  · next hget => cases h; exact grows_set_file hget rfl rfl
  · split at h
    · cases h
    · cases h; exact .refl _

/-- A directory that has been made has been put where there was nothing. -/
theorem makeDirectory_eq_ok {fs fs' : Files} {wd : WorkingDir} {p : Path}
    (h : fs.makeDirectory wd p = .ok fs') :
    ∃ at_, fs.get? at_ = none ∧ fs.make at_ .directory = .ok fs' := by
  unfold makeDirectory at h
  split at h
  · cases h
  · next loc hl => exact ⟨loc, get?_of_locate_missing hl, h⟩
  · cases h

section Directories

variable {R : Files → Files → Prop} {P : Path → Prop} {wd : WorkingDir} (refl : ∀ fs, R fs fs)
  (trans : ∀ {a b c}, R a b → R b c → R a c)
  (up : ∀ {p d}, P p → p.parent? = some d → P d)
  (make : ∀ {fs fs' : Files} {p : Path}, P p → fs.makeDirectory wd p = .ok fs' → R fs fs')

include refl make

/-- Making a directory that may be there already keeps what making one keeps. -/
theorem madeOrThere_keeps {p : Path} (hp : P p) (fs : Files) : R fs (fs.madeOrThere wd p).2 := by
  unfold madeOrThere
  split
  · next h => exact make hp h
  · split
    · exact refl fs
    · exact refl fs

include trans up

/-- Making a directory after those above it keeps what making those keeps. -/
theorem makeDirectoryBelow_keeps {above : Path → Files → Except IoError Unit × Files}
    (habove : ∀ {p}, P p → ∀ fs, R fs (above p fs).2) {p : Path} (hp : P p) (fs : Files) :
    R fs (makeDirectoryBelow wd above p fs).2 := by
  unfold makeDirectoryBelow
  split
  · exact refl fs
  · split
    · split
      · next parent hparent =>
        have hup := habove (up hp hparent) fs
        split
        · next made heq =>
          rw [heq] at hup
          exact trans hup (madeOrThere_keeps refl make hp _)
        · exact hup
      · exact refl fs
    · exact madeOrThere_keeps refl make hp _

/-- Making a directory together with those above it, as far as that can be done, keeps what making
one of them keeps. -/
theorem makeDirectories_keeps_above {p : Path} (hp : P p) (fs : Files) :
    R fs (fs.makeDirectories wd p).2 := by
  have hwithin : ∀ depth {p}, P p → ∀ fs, R fs (makeDirectoriesWithin wd depth p fs).2 := by
    intro depth
    induction depth with
    | zero => exact makeDirectoryBelow_keeps refl trans up make fun _ fs => refl fs
    | succ depth ih => exact makeDirectoryBelow_keeps refl trans up make ih
  exact hwithin _ hp fs

end Directories

/-- Making a directory together with those above it, as far as that can be done, keeps what putting
a directory where there is nothing keeps. -/
theorem makeDirectories_keeps {R : Files → Files → Prop} (refl : ∀ fs, R fs fs)
    (trans : ∀ {a b c}, R a b → R b c → R a c)
    (make : ∀ {fs fs' : Files} {at_ : Location}, fs.get? at_ = none →
      fs.make at_ .directory = .ok fs' → R fs fs') (fs : Files) (wd : WorkingDir) (p : Path) :
    R fs (fs.makeDirectories wd p).2 := by
  refine makeDirectories_keeps_above (P := fun _ => True) refl trans (fun _ _ => trivial) ?_
    trivial fs
  intro fs fs' p _ h
  obtain ⟨at_, hnone, hm⟩ := makeDirectory_eq_ok h
  exact make hnone hm

/-- Making a directory together with those above it. -/
theorem grows_makeDirectories (fs : Files) (wd : WorkingDir) (p : Path) :
    Grows fs (fs.makeDirectories wd p).2 :=
  makeDirectories_keeps Grows.refl Grows.trans (fun hnone hm => grows_make hnone hm) fs wd p

end Files

end CxxScript

import CxxScript.Proofs.Host.Ways
import CxxScript.Proofs.Path.Canonical

/-!
# Directories above a path

Before a file can be put somewhere the directories above it may have to be made. However far that
gets, nothing else changes: where something new stands there was nothing before, it is a directory,
and one of the paths above the file leads to it, `Files.raises_makeDirectories`. A name that is free
for a link is free for every use, `locate_free`, so the path by which a directory has been made
leads to it.
-/

set_option autoImplicit false

namespace CxxScript

namespace Path

/-- A path lies below its directory, and below the directories that this one lies below. -/
inductive LiesBelow (p : Path) : Path → Prop
  | own {dir : Path} (h : p.parent? = some dir) : LiesBelow p dir
  | further {dir above : Path} (hdir : LiesBelow p dir) (h : dir.parent? = some above) :
      LiesBelow p above

/-- A directory is spelled without a slash at its end, unless it is the root. -/
theorem bare_of_parent? {p dir : Path} (h : p.parent? = some dir) : Files.bare dir = dir := by
  have hdrop : ∀ s : List Char, (∀ rest, s ≠ '/' :: rest) → Files.dropSlashes s = s := by
    intro s hs
    unfold Files.dropSlashes
    split
    · exact absurd rfl (hs _)
    · rfl
  unfold parent? at h
  split at h
  · cases h
  · cases h
  · cases h
    decide
  · cases h
    rw [Files.bare, String.toList_ofList, List.reverse_reverse,
      hdrop _ fun rest => (dropTail_ne _ rest).1]

/-- A directory above a path is spelled without a slash at its end, unless it is the root. -/
theorem LiesBelow.bare {p dir : Path} (h : p.LiesBelow dir) : Files.bare dir = dir := by
  cases h with
  | own hparent => exact bare_of_parent? hparent
  | further _ hparent => exact bare_of_parent? hparent

end Path

namespace Files

/-! ## Free names -/

section Walking

variable {fs : Files} {along along' : Location → List String → Except Errno Found}
  {at_ loc : Location} {todo : List String}

/-- A walk that ends at a free name where a link would be used ends there where a link would be
followed, when this is so along links. -/
theorem walkWith_free
    (halong : ∀ at_ todo loc, along at_ todo = .ok (.missing loc) →
      along' at_ todo = .ok (.missing loc))
    (hw : fs.walkWith .linkItself along at_ todo = .ok (.missing loc)) :
    fs.walkWith .target along' at_ todo = .ok (.missing loc) := by
  have hmake : ∀ rest : List String, ¬(decide (Purpose.target = .creation) && !rest.isEmpty &&
      rest.all String.isEmpty) = true := by
    intro rest
    simp
  fun_induction walkWith fs .linkItself along at_ todo with
  | case1 => cases hw
  | case2 => cases hw
  | case3 => cases hw
  | case4 at_ name rest hget hskip ih =>
    rw [walkWith, hget]
    simp only [hskip, if_true]
    exact ih hw
  | case5 at_ rest hget hskip ih =>
    rw [walkWith, hget]
    simp only [hskip, Bool.false_eq_true, if_false, if_true]
    exact ih hw
  | case6 => cases hw
  | case7 => cases hw
  | case8 at_ name rest hget h₁ h₂ h₃ h₄ hnone hempty =>
    cases hw
    obtain rfl := List.isEmpty_iff.mp hempty
    rw [walkWith, hget]
    simp only [h₁, h₂, h₄, hnone, List.isEmpty_nil, Bool.not_true, Bool.and_false,
      Bool.false_and, Bool.false_eq_true, if_false, if_true]
  | case9 => cases hw
  | case10 => cases hw
  | case11 at_ name rest hget h₁ h₂ h₃ h₄ target hlink hlast =>
    have hfollow : ¬(rest.isEmpty && decide (Purpose.target = .linkItself)) = true := by simp
    rw [walkWith, hget]
    simp only [h₁, h₂, hmake rest, h₄, hlink, hfollow, Bool.false_eq_true, if_false]
    exact halong _ _ _ hw
  | case12 at_ name rest hget h₁ h₂ h₃ h₄ entry hnot hentry ih =>
    rw [walkWith_into hget h₁ h₂ (hmake rest) h₄ hentry hnot]
    exact ih hw
  | case13 => cases hw

/-- A walk that may stop at a link and ends where nothing stands ends there along links too. -/
theorem walk_free {links : Nat}
    (hw : fs.walk .linkItself links at_ todo = .ok (.missing loc)) :
    fs.walk .target links at_ todo = .ok (.missing loc) := by
  induction links generalizing at_ todo loc with
  | zero => exact walkWith_free (fun _ _ _ hnone => by cases hnone) hw
  | succ links ih => exact walkWith_free (fun _ _ _ hw => ih hw) hw

end Walking

variable {fs fs' : Files} {wd : WorkingDir} {p : Path} {at_ : Location}

/-- A path that leads to a free name where a link would be used leads there in any case. -/
theorem locate_free (hl : fs.locate wd .linkItself p = .ok (.missing at_)) :
    fs.locate wd .target p = .ok (.missing at_) := by
  obtain ⟨hnul, hempty, hlong, hf⟩ := locate_eq_ok hl
  have hf' : fs.follow wd .target p.text = .ok (.missing at_) := by
    unfold follow at hf ⊢
    split at hf
    · next habsolute =>
      rw [if_pos habsolute]
      exact walk_free hf
    · next hrelative =>
      rw [if_neg hrelative]
      split at hf
      · cases hf
      · split at hf
        · cases hf
        · next hgone =>
          rw [if_neg hgone]
          exact walk_free hf
      · exact walk_free hf
  rw [locate, if_neg (by rw [hnul]; exact Bool.false_ne_true),
    if_neg (by rw [hempty]; exact Bool.false_ne_true), if_neg (Nat.not_lt.mpr hlong), hf']

/-! ## Making directories -/

/-- A directory above a path has come into being at a location. -/
def Raised (wd : WorkingDir) (p : Path) (fs fs' : Files) (at_ : Location) : Prop :=
  fs.get? at_ = none ∧ fs'.get? at_ = some .directory ∧
    ∃ dir, p.LiesBelow dir ∧ fs'.find wd dir = .ok (at_, .directory)

/-- A directory that has come into being is there when files have been added. -/
theorem Raised.later {a b c : Files} (h : Raised wd p a b at_) (hg : Grows b c) :
    Raised wd p a c at_ := by
  obtain ⟨hnone, hmade, dir, hbelow, hfind⟩ := h
  obtain ⟨e, hl, hb⟩ := locate_grows hg (locate_of_find hfind)
  obtain rfl := hb.eq_of_not_file rfl
  exact ⟨hnone, hg.directory hmade, dir, hbelow, find_of_locate hl⟩

/-- Nothing has changed but that directories above a path have come into being. -/
structure Raises (wd : WorkingDir) (p : Path) (fs fs' : Files) : Prop where
  removed : fs'.removed = fs.removed
  changed : ∀ at_, fs'.get? at_ = fs.get? at_ ∨ Raised wd p fs fs' at_

namespace Raises

/-- Nothing happens at all. -/
theorem refl (wd : WorkingDir) (p : Path) (fs : Files) : Raises wd p fs fs :=
  ⟨rfl, fun _ => .inl rfl⟩

/-- Where directories alone have come into being, files have only been added. -/
theorem grows (h : Raises wd p fs fs') : Grows fs fs' := by
  refine ⟨h.removed, fun {at_ e} he => ?_⟩
  rcases h.changed at_ with hsame | ⟨hnone, -, -⟩
  · exact ⟨e, hsame.trans he, .refl e⟩
  · rw [he] at hnone
    cases hnone

/-- One stretch after the other. -/
theorem trans {a b c : Files} (h : Raises wd p a b) (h' : Raises wd p b c) : Raises wd p a c := by
  refine ⟨h'.removed.trans h.removed, fun at_ => ?_⟩
  rcases h.changed at_ with hsame | hraised
  · rcases h'.changed at_ with hsame' | ⟨hnone, hraised⟩
    · exact .inl (hsame'.trans hsame)
    · exact .inr ⟨hsame.symm.trans hnone, hraised⟩
  · exact .inr (hraised.later h'.grows)

end Raises

/-- To make a directory above a path is such a change. -/
theorem raises_makeDirectory {dir : Path} (hdir : p.LiesBelow dir)
    (h : fs.makeDirectory wd dir = .ok fs') : Raises wd p fs fs' := by
  unfold makeDirectory at h
  rw [hdir.bare] at h
  split at h
  · cases h
  · next at_ hl =>
    have hnone := get?_of_locate_missing hl
    obtain rfl := make_eq_set h
    have hat : at_ ≠ [] := by
      rintro rfl
      rw [get?_nil] at hnone
      cases hnone
    have hmade : (fs.set at_ .directory).get? at_ = some .directory := by
      rw [get?_set fs at_ at_ _ hat, if_pos rfl]
    -- The directory is made where a link would be used, and looked for where one is followed.
    have hfind : (fs.set at_ .directory).find wd dir = .ok (at_, .directory) :=
      find_of_locate (locate_ways (sameWays_set_directory hnone) (.inl rfl) (locate_free hl)
        (by simp) hmade)
    refine ⟨rfl, fun b => ?_⟩
    by_cases hb : b = at_
    · rw [hb]
      exact .inr ⟨hnone, hmade, dir, hdir, hfind⟩
    · by_cases hroot : b = []
      · rw [hroot, get?_nil, get?_nil]
        exact .inl rfl
      · exact .inl (by rw [get?_set fs at_ b _ hroot, if_neg hb])
  · cases h

/-- Making the directory of a path, as far as that can be done. -/
theorem raises_makeDirectories {dir : Path} (h : p.parent? = some dir) (fs : Files) :
    Raises wd p fs (fs.makeDirectories wd dir).2 :=
  makeDirectories_keeps_above (.refl wd p) .trans .further raises_makeDirectory (.own h) fs

end Files

end CxxScript

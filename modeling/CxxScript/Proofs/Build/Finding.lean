import CxxScript.Proofs.Build.Placing
import CxxScript.Proofs.Host.Raising
import Mathlib.Data.List.Basic

/-!
# What a search for a place leaves

A place is looked for by opening a file there, so the search leaves traces. How it ends is told by
`Placement.Settles`: the file could be opened where it was meant to stand, or else below the root,
when the directories above it had been made as far as that could be done, or not at all. The file
that has been found is what it was, or it is new and empty; nothing else has changed but that some
directories may have come into being, and only where the search went below the root:
`Placement.find_opens_one_file`.
-/

set_option autoImplicit false

namespace CxxScript

open Host

namespace Files

/-- A path can be opened for appending. -/
def Admits (fs : Files) (wd : WorkingDir) (p : Path) : Prop :=
  ∃ opened, fs.openAppend wd p = .ok opened

/-- A path that is refused cannot be opened. -/
theorem not_admits_of_error {fs : Files} {wd : WorkingDir} {p : Path} {cause : IoError}
    (h : fs.openAppend wd p = .error cause) : ¬ fs.Admits wd p := by
  rintro ⟨opened, ho⟩
  rw [h] at ho
  cases ho

/-- Making the directory of a path changes nothing but what stands above it. -/
theorem raises_withDirectory (fs : Files) (wd : WorkingDir) (p : Path) :
    Raises wd p fs (fs.withDirectory wd p) := by
  unfold withDirectory
  split
  · next dir h => exact raises_makeDirectories h fs
  · exact .refl wd p fs

/-- A file that has been opened stands at a location and is what it was, or it is new and empty;
nothing has changed elsewhere. -/
structure Opened (wd : WorkingDir) (p : Path) (fs fs' : Files) (at_ : Location) (e : Entry) :
    Prop where
  find : fs'.find wd p = .ok (at_, e)
  readable : e.isReadable = true
  entry : fs.get? at_ = some e ∨ fs.get? at_ = none ∧ e = .file [] false
  elsewhere : ∀ b, b ≠ at_ → fs'.get? b = fs.get? b

/-- What opening a path for appending gives is a file that has been opened. -/
theorem opened_of_openAppend {fs fs' : Files} {wd : WorkingDir} {p : Path} {at_ : Location}
    (h : fs.openAppend wd p = .ok (at_, fs')) : ∃ e, Opened wd p fs fs' at_ e := by
  rcases openAppend_eq_ok h with ⟨e, hl, hopens, rfl⟩ | ⟨hl, hm⟩
  · have hreadable : e.isReadable = true := by
      rcases hopens with hfile | ⟨d, rfl, -⟩
      · cases e with
        | file content executable => rfl
        | _ => cases hfile
      · rfl
    have hdirectory : e ≠ .directory := by
      rintro rfl
      cases hreadable
    obtain ⟨-, -, -, hf⟩ := locate_eq_ok hl
    have hget := get?_of_follow hf hdirectory
    have hfind := find_of_locate (locate_ways (.refl _) (.inr ⟨rfl, rfl⟩) hl
      (by simpa using hdirectory) hget)
    exact ⟨e, hfind, hreadable, .inl hget, fun _ _ => rfl⟩
  · have hnone := get?_of_locate_missing hl
    obtain rfl := make_eq_set hm
    refine ⟨.file [] false, find_set (.inr rfl) hl (by simp) (fun e he => ?_) rfl, rfl,
      .inr ⟨hnone, rfl⟩, fun b hb => ?_⟩
    · rw [Found.place, hnone] at he
      cases he
    · by_cases hroot : b = []
      · rw [hroot, get?_nil, get?_nil]
      · rw [get?_set fs at_ b _ hroot, if_neg hb]

/-- What a path led to before it was opened is what has been opened. -/
theorem Opened.same {fs before after : Files} {wd : WorkingDir} {p : Path} {at_ b : Location}
    {e e' : Entry} (ho : Opened wd p before after at_ e) (hg : Grows fs after)
    (hentry : fs.get? at_ = some e ∨ fs.get? at_ = none ∧ e = .file [] false)
    (hfind : fs.find wd p = .ok (b, e')) : b = at_ ∧ e' = e := by
  obtain ⟨e'', hl, hbecomes⟩ := locate_grows hg (locate_of_find hfind)
  obtain ⟨rfl, rfl⟩ : b = at_ ∧ e'' = e := by
    have hopened := locate_of_find ho.find
    rw [hl] at hopened
    cases hopened
    exact ⟨rfl, rfl⟩
  have hdirectory : e' ≠ .directory := by
    rintro rfl
    obtain rfl := hbecomes.eq_of_not_file rfl
    cases ho.readable
  have hget := get?_of_find hfind hdirectory
  rcases hentry with hsame | ⟨hnone, -⟩
  · rw [hget] at hsame
    exact ⟨rfl, Option.some.inj hsame⟩
  · rw [hget] at hnone
    cases hnone

end Files

namespace Placement

variable {m : Machine} {root p : Path} {h h' : Host}

/-- A file is put where it is meant to stand just when it can be opened there for appending, and
else below the root just when it can be opened there once the directories above it have been made as
far as that can be done; there is no place for it just when neither goes. What has been found is
what it was, or it is new and empty. Nothing else has changed, but that directories above the place
below the root may have come into being when the file could not be opened where it was meant to
stand. -/
theorem find_opens_one_file (m : Machine) (root p : Path) (h : Host) :
    Leads (find m root p) h fun r h' =>
      (r = .ok ⟨p, false⟩ ↔ h.files.Admits m.cwd p) ∧
      (r = .ok ⟨mirrored m root p h, true⟩ ↔ ¬ h.files.Admits m.cwd p ∧
        (h.files.withDirectory m.cwd (mirrored m root p h)).Admits m.cwd (mirrored m root p h)) ∧
      (r = .error (.notWritable p (mirrored m root p h)) ↔ ¬ h.files.Admits m.cwd p ∧
        ¬ (h.files.withDirectory m.cwd (mirrored m root p h)).Admits m.cwd (mirrored m root p h)) ∧
      (∀ place, r = .ok place → ∃ at_ e, h'.files.find m.cwd place.path = .ok (at_, e) ∧
        e.isReadable = true ∧
        (h.files.get? at_ = some e ∨ h.files.get? at_ = none ∧ e = .file [] false) ∧
        (∀ b e', h.files.find m.cwd place.path = .ok (b, e') → b = at_ ∧ e' = e) ∧
        ∀ b, b ≠ at_ → h'.files.get? b = h.files.get? b ∨
          place.relocated = true ∧ Files.Raised m.cwd place.path h.files h'.files b) ∧
      ∀ cause, r = .error cause → ∀ b, h'.files.get? b = h.files.get? b ∨
        Files.Raised m.cwd (mirrored m root p h) h.files h'.files b := by
  refine (find_settles m root p h).mono fun r h' hsettles => ?_
  have hraises := Files.raises_withDirectory h.files m.cwd (mirrored m root p h)
  cases hsettles with
  | @beside at_ fs ho =>
    have hadmits : h.files.Admits m.cwd p := ⟨_, ho⟩
    refine ⟨by simp [hadmits], by simp [hadmits], by simp [hadmits], fun place hplace => ?_,
      fun cause hcause => (by cases hcause)⟩
    cases hplace
    obtain ⟨e, hopened⟩ := Files.opened_of_openAppend ho
    refine ⟨at_, e, hopened.find, hopened.readable, hopened.entry, fun b e' hfind => ?_,
      fun b hb => .inl (hopened.elsewhere b hb)⟩
    exact hopened.same (Files.grows_openAppend ho) hopened.entry hfind
  | @below cause at_ fs hno ho =>
    have hnot := Files.not_admits_of_error hno
    have hadmits : (h.files.withDirectory m.cwd (mirrored m root p h)).Admits m.cwd
        (mirrored m root p h) := ⟨_, ho⟩
    refine ⟨by simp [hnot], by simp [hnot, hadmits], by simp [hadmits], fun place hplace => ?_,
      fun cause hcause => (by cases hcause)⟩
    cases hplace
    obtain ⟨e, hopened⟩ := Files.opened_of_openAppend ho
    have hgrows := Files.grows_openAppend ho
    have hentry : h.files.get? at_ = some e ∨ h.files.get? at_ = none ∧ e = .file [] false := by
      rcases hraises.changed at_ with hsame | ⟨-, hmade, -⟩
      · rw [← hsame]
        exact hopened.entry
      · -- A directory that has just been made cannot be opened.
        rcases hopened.entry with hthere | ⟨hnone, -⟩
        · rw [hmade] at hthere
          cases hthere
          cases hopened.readable
        · rw [hmade] at hnone
          cases hnone
    refine ⟨at_, e, hopened.find, hopened.readable, hentry, fun b e' hfind => ?_, fun b hb => ?_⟩
    · exact hopened.same (hraises.grows.trans hgrows) hentry hfind
    · have hthen := hopened.elsewhere b hb
      rcases hraises.changed b with hsame | hraised
      · exact .inl (hthen.trans hsame)
      · exact .inr ⟨rfl, hraised.later hgrows⟩
  | nowhere hno hno' =>
    have hnot := Files.not_admits_of_error hno
    have hnot' := Files.not_admits_of_error hno'
    refine ⟨by simp [hnot], by simp [hnot'], by simp [hnot, hnot'], fun place hplace => ?_,
      fun cause hcause => hraises.changed⟩
    cases hplace

/-- A machine with a directory that the tool works in. -/
def cellar : Machine where
  cwd := ["w"]
  environment := []
  pid := 7
  time := 0
  accountHome := none
  execute _ _ := .error .noEntry

/-- The host of that machine: there is one file, and a directory for a cache. -/
def cellarHost : Host where
  files :=
    { entries := [(["w"], .directory), (["w", "a.o"], .file [107] false), (["c"], .directory)] }

/-- Looking for a place for a file in a directory that there is not. -/
def cellarRun (root : String) : Except PlacementError Placement × Host :=
  (find cellar ⟨root⟩ ⟨"no/a.o"⟩).run cellarHost

/-- The file finds a place below a directory that is still to be made, and none below a file. -/
theorem find_opens_one_file_cellar :
    (cellarRun "/c/d").1 = .ok ⟨⟨"/c/d/w/no/a.o"⟩, true⟩ ∧
      (∃ at_ e, (cellarRun "/c/d").2.files.find cellar.cwd ⟨"/c/d/w/no/a.o"⟩ = .ok (at_, e) ∧
        (cellarHost.files.get? at_ = some e ∨
          cellarHost.files.get? at_ = none ∧ e = .file [] false)) ∧
      (cellarRun "a.o").1 = .error (.notWritable ⟨"no/a.o"⟩ ⟨"a.o/w/no/a.o"⟩) ∧
      ∀ b, (cellarRun "a.o").2.files.get? b = cellarHost.files.get? b ∨
        Files.Raised cellar.cwd (mirrored cellar ⟨"a.o"⟩ ⟨"no/a.o"⟩ cellarHost) cellarHost.files
          (cellarRun "a.o").2.files b := by
  have hok : (cellarRun "/c/d").1 = .ok ⟨⟨"/c/d/w/no/a.o"⟩, true⟩ := by decide +kernel
  have herror : (cellarRun "a.o").1 = .error (.notWritable ⟨"no/a.o"⟩ ⟨"a.o/w/no/a.o"⟩) := by
    decide +kernel
  obtain ⟨⟨r, h'⟩, hrun⟩ : ∃ x, cellarRun "/c/d" = x := ⟨_, rfl⟩
  obtain ⟨⟨r', k'⟩, hrun'⟩ : ∃ x, cellarRun "a.o" = x := ⟨_, rfl⟩
  rw [hrun] at hok ⊢
  rw [hrun'] at herror ⊢
  obtain ⟨-, -, -, hfound, -⟩ := (leads_of_run hrun _).mp
    (find_opens_one_file cellar ⟨"/c/d"⟩ ⟨"no/a.o"⟩ cellarHost)
  obtain ⟨-, -, -, -, hleft⟩ := (leads_of_run hrun' _).mp
    (find_opens_one_file cellar ⟨"a.o"⟩ ⟨"no/a.o"⟩ cellarHost)
  obtain ⟨at_, e, hfind, -, hentry, -⟩ := hfound _ hok
  exact ⟨hok, ⟨at_, e, hfind, hentry⟩, herror, hleft _ herror⟩

end Placement

end CxxScript

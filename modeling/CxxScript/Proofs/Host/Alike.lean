import CxxScript.Host.Storage
import CxxScript.Proofs.Host.Ways
import Mathlib.Data.Option.Basic

/-!
# Files side by side

The files of two hosts are alike when nothing tells them apart but the contents of some regular
files; which contents may differ, and how, is a relation `R`. As contents are looked at by nothing
but reading, a path leads to the same place in both, `locate_alike`, and what is made, written or
removed in both leaves them alike.
-/

set_option autoImplicit false

namespace CxxScript

/-- Two outcomes are of one kind: the same failure, or results that are related. -/
inductive Likewise {ε α β : Type} (Q : α → β → Prop) : Except ε α → Except ε β → Prop where
  | error (e : ε) : Likewise Q (.error e) (.error e)
  | ok {a : α} {b : β} : Q a b → Likewise Q (.ok a) (.ok b)

/-- Outcomes of one kind are two failures or two results. -/
theorem Likewise.split {ε α β : Type} {Q : α → β → Prop} {x : Except ε α} {y : Except ε β}
    (h : Likewise Q x y) : (∃ e, x = .error e ∧ y = .error e) ∨
      ∃ a b, x = .ok a ∧ y = .ok b ∧ Q a b := by
  cases h with
  | error e => exact .inl ⟨e, rfl, rfl⟩
  | ok hQ => exact .inr ⟨_, _, rfl, rfl, hQ⟩

/-! ## Files -/

/-- Two entries at a location are alike: the same, or regular files whose contents may differ. -/
inductive Entry.Alike (R : Location → Bytes → Bytes → Prop) (at_ : Location) :
    Entry → Entry → Prop where
  | same (e : Entry) : Entry.Alike R at_ e e
  | file {content content' : Bytes} (executable : Bool) : R at_ content content' →
      Entry.Alike R at_ (.file content executable) (.file content' executable)

namespace Files

variable {R : Location → Bytes → Bytes → Prop} {fs fs' : Files}

/-- The same is there in both, but for contents that may differ. -/
structure Alike (R : Location → Bytes → Bytes → Prop) (fs fs' : Files) : Prop where
  removed : fs'.removed = fs.removed
  entries : ∀ at_, (fs.get? at_ = none ∧ fs'.get? at_ = none) ∨
    ∃ e e', fs.get? at_ = some e ∧ fs'.get? at_ = some e' ∧ Entry.Alike R at_ e e'

/-- Files are like themselves, whichever contents may differ. -/
theorem Alike.refl (R : Location → Bytes → Bytes → Prop) (fs : Files) : Alike R fs fs where
  removed := rfl
  entries at_ := by
    cases hget : fs.get? at_ with
    | none => exact .inl ⟨rfl, rfl⟩
    | some e => exact .inr ⟨e, e, rfl, rfl, .same e⟩

/-- Files that are alike are so if more may differ. -/
theorem Alike.mono {S : Location → Bytes → Bytes → Prop} (h : Alike R fs fs')
    (hRS : ∀ at_ c c', R at_ c c' → S at_ c c') : Alike S fs fs' := by
  refine ⟨h.removed, fun at_ => ?_⟩
  rcases h.entries at_ with hnone | ⟨e, e', he, he', halike⟩
  · exact .inl hnone
  · refine .inr ⟨e, e', he, he', ?_⟩
    cases halike with
    | same => exact .same _
    | file executable hR => exact .file executable (hRS _ _ _ hR)

/-- Paths have led to the same: one entry and its like, or one free name. -/
inductive Found.Alike (R : Location → Bytes → Bytes → Prop) : Found → Found → Prop where
  | present {at_ : Location} {e e' : Entry} : Entry.Alike R at_ e e' →
      Found.Alike R (.present at_ e) (.present at_ e')
  | missing (at_ : Location) : Found.Alike R (.missing at_) (.missing at_)

/-- A walk leads to the same in both, when this is so along links. -/
theorem walkWith_alike (h : Alike R fs fs') {purpose : Purpose}
    {along along' : Location → List String → Except Errno Found}
    (halong : ∀ at_ todo, Likewise (Found.Alike R) (along at_ todo) (along' at_ todo))
    (at_ : Location) (todo : List String) :
    Likewise (Found.Alike R) (fs.walkWith purpose along at_ todo)
      (fs'.walkWith purpose along' at_ todo) := by
  induction todo generalizing at_ with
  | nil =>
    rw [walkWith, walkWith]
    rcases h.entries at_ with ⟨hnone, hnone'⟩ | ⟨e, e', he, he', halike⟩
    · rw [hnone, hnone']
      exact .error _
    · rw [he, he']
      exact .ok (.present halike)
  | cons name rest ih =>
    rw [walkWith, walkWith]
    rcases h.entries at_ with ⟨hnone, hnone'⟩ | ⟨e, e', he, he', halike⟩
    · rw [hnone, hnone']
      exact .error _
    · rw [he, he']
      cases halike with
      | file executable hR => exact .error _
      | same =>
        cases e with
        | file content executable => exact .error _
        | link target => exact .error _
        | device d => exact .error _
        | directory =>
          dsimp only
          split
          · exact ih at_
          split
          · exact ih at_.dropLast
          split
          · exact .error _
          split
          · exact .error _
          rcases h.entries (at_ ++ [name]) with ⟨hnone, hnone'⟩ | ⟨e, e', he, he', halike⟩
          · rw [hnone, hnone']
            dsimp only
            split
            · exact .ok (.missing _)
            · exact .error _
          · rw [he, he']
            cases halike with
            | file executable hR => exact ih (at_ ++ [name])
            | same =>
              cases e with
              | file content executable => exact ih (at_ ++ [name])
              | directory => exact ih (at_ ++ [name])
              | device d => exact ih (at_ ++ [name])
              | link target =>
                dsimp only
                split
                · exact .ok (.present (.same _))
                · exact halong _ _

/-- A walk leads to the same in both. -/
theorem walk_alike (h : Alike R fs fs') (purpose : Purpose) (links : Nat) (at_ : Location)
    (todo : List String) :
    Likewise (Found.Alike R) (fs.walk purpose links at_ todo)
      (fs'.walk purpose links at_ todo) := by
  induction links generalizing at_ todo with
  | zero => exact walkWith_alike h (fun _ _ => .error _) at_ todo
  | succ links ih => exact walkWith_alike h ih at_ todo

/-- What is gone from the one is gone from the other. -/
theorem isGone_alike (h : Alike R fs fs') (wd : WorkingDir) (at_ : Location) :
    fs'.isGone wd at_ = fs.isGone wd at_ := by simp only [isGone, h.removed]

/-- A path text leads to the same in both. -/
theorem follow_alike (h : Alike R fs fs') (wd : WorkingDir) (purpose : Purpose) (text : String) :
    Likewise (Found.Alike R) (fs.follow wd purpose text) (fs'.follow wd purpose text) := by
  unfold follow
  split
  · exact walk_alike h purpose maxLinks [] _
  · rw [emerge_congr h.removed]
    rcases fs.emerge wd wd.at_ (names text) with e | ⟨at_, todo⟩
    · exact .error e
    · cases todo with
      | cons name rest => exact walk_alike h purpose maxLinks at_ _
      | nil =>
        dsimp only
        rw [isGone_alike h]
        split
        · exact .ok (.present (.same _))
        · exact walk_alike h purpose maxLinks at_ []

/-- A path leads to the same in both. -/
theorem locate_alike (h : Alike R fs fs') (wd : WorkingDir) (purpose : Purpose) (p : Path) :
    Likewise (Found.Alike R) (fs.locate wd purpose p) (fs'.locate wd purpose p) := by
  unfold locate
  split
  · exact .error _
  split
  · exact .error _
  split
  · exact .error _
  rcases (follow_alike h wd purpose p.text).split with ⟨e, he, he'⟩ | ⟨f, f', hf, hf', halike⟩
  · rw [he, he']
    exact .error _
  · rw [hf, hf']
    exact .ok halike

/-- In files that nothing tells apart a path leads to the same. -/
theorem locate_eq_of_alike (h : Alike (fun _ _ _ => False) fs fs') (wd : WorkingDir)
    (purpose : Purpose) (p : Path) : fs'.locate wd purpose p = fs.locate wd purpose p := by
  rcases (locate_alike h wd purpose p).split with ⟨e, he, he'⟩ | ⟨f, f', hf, hf', halike⟩
  · rw [he, he']
  · have hsame : f' = f := by
      cases halike with
      | missing at_ => rfl
      | present hentry =>
        cases hentry with
        | same e => rfl
        | file executable hdiffer => exact hdiffer.elim
    rw [hf, hf', hsame]

/-- A path leads to one entry in both, or to its like. -/
theorem find_alike (h : Alike R fs fs') (wd : WorkingDir) (p : Path) :
    Likewise (fun f f' => f'.1 = f.1 ∧ Entry.Alike R f.1 f.2 f'.2) (fs.find wd p)
      (fs'.find wd p) := by
  unfold find
  rcases (locate_alike h wd .target p).split with ⟨e, he, he'⟩ | ⟨f, f', hf, hf', halike⟩
  · rw [he, he']
    exact .error e
  · rw [hf, hf']
    cases halike with
    | present he => exact .ok ⟨rfl, he⟩
    | missing at_ => exact .error _

/-- A path leads to a regular file in both or in neither. -/
theorem isFile_alike (h : Alike R fs fs') (wd : WorkingDir) (p : Path) :
    fs'.isFile wd p = fs.isFile wd p := by
  unfold isFile
  rcases (find_alike h wd p).split with ⟨e, he, he'⟩ | ⟨⟨at_, e⟩, ⟨at', e'⟩, hf, hf', -, halike⟩
  · rw [he, he']
  · rw [hf, hf']
    cases halike <;> rfl

/-- A path leads to a directory in both or in neither. -/
theorem isDirectory_alike (h : Alike R fs fs') (wd : WorkingDir) (p : Path) :
    fs'.isDirectory wd p = fs.isDirectory wd p := by
  unfold isDirectory
  rcases (find_alike h wd p).split with ⟨e, he, he'⟩ | ⟨⟨at_, e⟩, ⟨at', e'⟩, hf, hf', -, halike⟩
  · rw [he, he']
  · rw [hf, hf']
    cases halike <;> rfl

/-- The working directory has the same location in both. -/
theorem workingLocation?_alike (h : Alike R fs fs') (wd : WorkingDir) :
    fs'.workingLocation? wd = fs.workingLocation? wd := by
  have hdir : fs'.isDirectoryAt wd.at_ = fs.isDirectoryAt wd.at_ := by
    unfold isDirectoryAt
    rcases h.entries wd.at_ with ⟨hnone, hnone'⟩ | ⟨e, e', he, he', halike⟩
    · rw [hnone, hnone']
    · rw [he, he']
      cases halike
      · rfl
      · simp
  rw [workingLocation?, workingLocation?, isGone_alike h, hdir]

/-- A file has the same key in both. -/
theorem identity_alike (h : Alike R fs fs') (wd : WorkingDir) (p : Path) :
    fs'.identity wd p = fs.identity wd p := by
  have hcanonical : fs'.canonical? wd p = fs.canonical? wd p := by
    unfold canonical?
    rw [workingLocation?_alike h]
    rcases (follow_alike h wd .target p.text).split with
      ⟨e, he, he'⟩ | ⟨f, f', hf, hf', halike⟩
    · rw [he, he']
    · rw [hf, hf']
      cases halike <;> rfl
  rw [identity, identity, hcanonical, workingLocation?_alike h]

/-- Putting like entries at a location. -/
theorem set_alike (h : Alike R fs fs') {at_ : Location} {e e' : Entry}
    (he : Entry.Alike R at_ e e') : Alike R (fs.set at_ e) (fs'.set at_ e') := by
  refine ⟨h.removed, fun b => ?_⟩
  by_cases hb : b = []
  · subst hb
    rw [get?_nil, get?_nil]
    exact .inr ⟨_, _, rfl, rfl, .same _⟩
  · rw [get?_set fs at_ b e hb, get?_set fs' at_ b e' hb]
    by_cases hat : b = at_
    · subst hat
      rw [if_pos rfl, if_pos rfl]
      exact .inr ⟨e, e', rfl, rfl, he⟩
    · rw [if_neg hat, if_neg hat]
      exact h.entries b

/-- Putting an entry in the place of one that it is like. -/
theorem alike_set {at_ : Location} {e e' : Entry} (hget : fs.get? at_ = some e)
    (he : Entry.Alike R at_ e e') : Alike R fs (fs.set at_ e') := by
  refine ⟨rfl, fun b => ?_⟩
  by_cases hb : b = []
  · subst hb
    rw [get?_nil, get?_nil]
    exact .inr ⟨_, _, rfl, rfl, .same _⟩
  · rw [get?_set fs at_ b e' hb]
    by_cases hat : b = at_
    · subst hat
      rw [if_pos rfl]
      exact .inr ⟨e, e', hget, rfl, he⟩
    · rw [if_neg hat]
      exact (Alike.refl R fs).entries b

/-- Making an entry at a free location. -/
theorem make_alike (h : Alike R fs fs') (at_ : Location) (entry : Entry) :
    Likewise (Alike R) (fs.make at_ entry) (fs'.make at_ entry) := by
  unfold make
  split
  · exact .error _
  · exact .error _
  · exact .error _
  · exact .ok (set_alike h (.same entry))

/-- Opening a file for appending. -/
theorem openAppend_alike (h : Alike R fs fs') (wd : WorkingDir) (p : Path) :
    Likewise (fun r r' => r'.1 = r.1 ∧ Alike R r.2 r'.2) (fs.openAppend wd p)
      (fs'.openAppend wd p) := by
  unfold openAppend
  rcases (locate_alike h wd .creation p).split with ⟨e, he, he'⟩ | ⟨f, f', hf, hf', halike⟩
  · rw [he, he']
    exact .error e
  · rw [hf, hf']
    cases halike with
    | @present at_ e e' he =>
      cases he with
      | file executable hR => exact .ok ⟨rfl, h⟩
      | same =>
        cases e with
        | file content executable => exact .ok ⟨rfl, h⟩
        | directory => exact .error _
        | link target => exact .error _
        | device d =>
          dsimp only
          cases d.opening with
          | error e => exact .error e
          | ok _ => exact .ok ⟨rfl, h⟩
    | missing at_ =>
      dsimp only
      rcases (make_alike h at_ (.file [] false)).split with
        ⟨e, he, he'⟩ | ⟨made, made', hm, hm', hmade⟩
      · rw [he, he']
        exact .error e
      · rw [hm, hm']
        exact .ok ⟨rfl, hmade⟩

/-- Opening a file to be written from its start leaves the same entry in both. -/
theorem create_alike (h : Alike R fs fs') (wd : WorkingDir) (p : Path) :
    Likewise (fun r r' => r'.1 = r.1 ∧ Alike R r.2 r'.2 ∧ r'.2.get? r.1 = r.2.get? r.1)
      (fs.create wd p) (fs'.create wd p) := by
  have hset : ∀ at_ e, (fs'.set at_ e).get? at_ = (fs.set at_ e).get? at_ := by
    intro at_ e
    by_cases hat : at_ = []
    · subst hat
      rw [get?_nil, get?_nil]
    · rw [get?_set fs at_ at_ e hat, get?_set fs' at_ at_ e hat, if_pos rfl, if_pos rfl]
  unfold create
  rcases (locate_alike h wd .creation p).split with ⟨e, he, he'⟩ | ⟨f, f', hf, hf', halike⟩
  · rw [he, he']
    exact .error e
  · rw [hf, hf']
    cases halike with
    | @present at_ e e' he =>
      cases he with
      | file executable hR => exact .ok ⟨rfl, set_alike h (.same _), hset _ _⟩
      | same =>
        cases e with
        | file content executable => exact .ok ⟨rfl, set_alike h (.same _), hset _ _⟩
        | directory => exact .error _
        | link target => exact .error _
        | device d =>
          have hget := get?_of_follow (locate_eq_ok hf).2.2.2 (by simp)
          have hget' := get?_of_follow (locate_eq_ok hf').2.2.2 (by simp)
          dsimp only
          cases d.opening with
          | error e => exact .error e
          | ok _ => exact .ok ⟨rfl, h, by rw [hget, hget']⟩
    | missing at_ =>
      dsimp only
      rcases (make_alike h at_ (.file [] false)).split with
        ⟨e, he, he'⟩ | ⟨made, made', hm, hm', hmade⟩
      · rw [he, he']
        exact .error e
      · rw [hm, hm']
        refine .ok ⟨rfl, hmade, ?_⟩
        dsimp only
        rw [make_eq_set hm, make_eq_set hm']
        exact hset at_ _

/-- Making one directory. -/
theorem makeDirectory_alike (h : Alike R fs fs') (wd : WorkingDir) (p : Path) :
    Likewise (Alike R) (fs.makeDirectory wd p) (fs'.makeDirectory wd p) := by
  unfold makeDirectory
  rcases (locate_alike h wd .linkItself (bare p)).split with
    ⟨e, he, he'⟩ | ⟨f, f', hf, hf', halike⟩
  · rw [he, he']
    exact .error e
  · rw [hf, hf']
    cases halike with
    | present he => exact .error _
    | missing at_ => exact make_alike h at_ .directory

/-- Two ways to make directories have the same outcome from files that are alike. -/
def MakesAlike (R : Location → Bytes → Bytes → Prop)
    (make : Path → Files → Except IoError Unit × Files) : Prop :=
  ∀ p fs fs', Alike R fs fs' → (make p fs').1 = (make p fs).1 ∧ Alike R (make p fs).2 (make p fs').2

/-- Making a directory that may be there already. -/
theorem madeOrThere_alike (h : Alike R fs fs') (wd : WorkingDir) (p : Path) :
    (fs'.madeOrThere wd p).1 = (fs.madeOrThere wd p).1 ∧
      Alike R (fs.madeOrThere wd p).2 (fs'.madeOrThere wd p).2 := by
  unfold madeOrThere
  rcases (makeDirectory_alike h wd p).split with ⟨e, he, he'⟩ | ⟨made, made', hm, hm', hmade⟩
  · rw [he, he']
    dsimp only
    rw [isDirectory_alike h]
    split
    · exact ⟨rfl, h⟩
    · exact ⟨rfl, h⟩
  · rw [hm, hm']
    exact ⟨rfl, hmade⟩

/-- Making a directory, and the one above it first where that is missing. -/
theorem makeDirectoryBelow_alike (wd : WorkingDir)
    {above : Path → Files → Except IoError Unit × Files} (habove : MakesAlike R above) :
    MakesAlike R (makeDirectoryBelow wd above) := by
  intro p fs fs' h
  have hlacks : lacksEntry (fs'.makeDirectory wd p) = lacksEntry (fs.makeDirectory wd p) := by
    rcases (makeDirectory_alike h wd p).split with ⟨e, he, he'⟩ | ⟨made, made', hm, hm', -⟩
    · rw [he, he']
    · rw [hm, hm']
      rfl
  unfold makeDirectoryBelow
  rw [hlacks]
  split
  · exact ⟨rfl, h⟩
  split
  · split
    · next parent _ =>
      obtain ⟨hresult, hmade⟩ := habove parent fs fs' h
      revert hresult hmade
      rcases above parent fs with ⟨r, made⟩
      rcases above parent fs' with ⟨r', made'⟩
      intro hresult hmade
      obtain rfl : r' = r := hresult
      cases r' with
      | ok _ => exact madeOrThere_alike hmade wd p
      | error e => exact ⟨rfl, hmade⟩
    · exact ⟨rfl, h⟩
  · exact madeOrThere_alike h wd p

/-- Making a directory together with those above it. -/
theorem makeDirectories_alike (h : Alike R fs fs') (wd : WorkingDir) (p : Path) :
    (fs'.makeDirectories wd p).1 = (fs.makeDirectories wd p).1 ∧
      Alike R (fs.makeDirectories wd p).2 (fs'.makeDirectories wd p).2 := by
  have hwithin : ∀ depth, MakesAlike R (makeDirectoriesWithin wd depth) := by
    intro depth
    induction depth with
    | zero => exact makeDirectoryBelow_alike wd fun _ _ _ h => ⟨rfl, h⟩
    | succ depth ih => exact makeDirectoryBelow_alike wd ih
  exact hwithin _ p fs fs' h

/-- Adding bytes to what is the same in both. What has been added may differ where contents may. -/
theorem append_alike (h : Alike R fs fs') {at_ : Location} {bytes bytes' : Bytes}
    (hget : fs'.get? at_ = fs.get? at_) (hempty : bytes'.isEmpty = bytes.isEmpty)
    (hcontent : ∀ c executable, fs.get? at_ = some (.file c executable) →
      Entry.Alike R at_ (.file (c ++ bytes) executable) (.file (c ++ bytes') executable)) :
    Likewise (Alike R) (fs.append at_ bytes) (fs'.append at_ bytes') := by
  have hrefusal : fs'.refusal? at_ = fs.refusal? at_ := by rw [refusal?, refusal?, hget]
  unfold append
  rw [hget, hrefusal]
  split
  · next content executable hfile => exact .ok (set_alike h (hcontent content executable hfile))
  · cases bytes with
    | nil =>
      cases bytes' with
      | nil => exact .ok h
      | cons b rest => cases hempty
    | cons b rest =>
      cases bytes' with
      | nil => cases hempty
      | cons b' rest' =>
        cases fs.refusal? at_ with
        | none => exact .ok h
        | some e => exact .error _

end Files

end CxxScript

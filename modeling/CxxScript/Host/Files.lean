import CxxScript.Host.Device
import CxxScript.Text.Utf8

/-!
# Files

The files of a machine are a finite table from locations to entries: regular files with their
bytes and their execute permission, directories, symbolic links and devices. The root is always a
directory. `get?_set` and `get?_erase` say what writing and removing do to the table.

A directory may be removed while a process works in it, and another one may then be made in its
place. The table of the removed directories tells the two apart: `isGone` says that the directory
a process has entered is no longer the one that stands there.

Entries carry no permission to read, to write or to search: whoever runs the program may do all of
this everywhere. So a file that may not be read and a directory that may not be written are not
among the files here; what can be refused, and why, is said in `Host.Access`.
-/

set_option autoImplicit false

namespace CxxScript

/-- What stands at a location. -/
inductive Entry where
  | file (content : Bytes) (executable : Bool)
  | directory
  | link (target : String)
  | device (d : Device)
  deriving DecidableEq, Repr

/-- Whether the entry is a regular file. -/
def Entry.isFile : Entry → Bool
  | .file .. => true
  | _ => false

/-- The files of a machine. -/
structure Files where
  entries : List (Location × Entry)
  /-- The directories that have been removed, the latest first. -/
  removed : List Location := []
  deriving DecidableEq, Repr

/-- A directory that a process works in: where it stood when the process entered it, and how many
directories had been removed by then. -/
structure WorkingDir where
  at_ : Location
  entered : Nat := 0
  deriving DecidableEq, Repr

/-- A location stands for the directory that was there from the start. -/
instance : Coe Location WorkingDir := ⟨fun at_ => { at_ }⟩

namespace Files

/-- The files of a machine that has none. -/
def empty : Files := { entries := [] }

/-- The entry at a location. -/
def get? (fs : Files) (at_ : Location) : Option Entry :=
  if at_ = [] then some .directory else fs.entries.lookup at_

/-- Take the entry at a location away. -/
def erase (fs : Files) (at_ : Location) : Files :=
  { fs with entries := fs.entries.filter fun e => e.1 != at_ }

/-- Put an entry at a location, in place of what was there. -/
def set (fs : Files) (at_ : Location) (entry : Entry) : Files :=
  { fs with entries := (at_, entry) :: (fs.erase at_).entries }

/-- The root is a directory. -/
@[simp] theorem get?_nil (fs : Files) : fs.get? [] = some .directory := by simp [get?]

/-- What stands at a location other than the root is in the table. -/
theorem mem_entries_of_get? {fs : Files} {at_ : Location} {e : Entry} (h : fs.get? at_ = some e) :
    at_ = [] ∨ (at_, e) ∈ fs.entries := by
  rw [get?] at h
  split at h
  · next hroot => exact .inl hroot
  · obtain ⟨before, after, hsplit, -⟩ := List.lookup_eq_some_iff.mp h
    refine .inr ?_
    rw [hsplit]
    exact List.mem_append_right _ List.mem_cons_self

/-- Looking up in a table without one key. -/
theorem lookup_filter_ne {α : Type} (entries : List (Location × α)) (a b : Location) :
    (entries.filter fun e => e.1 != a).lookup b = if b = a then none else entries.lookup b := by
  induction entries with
  | nil => simp
  | cons e rest ih =>
    obtain ⟨k, v⟩ := e
    rw [List.filter_cons]
    by_cases hk : k = a
    · simp only [hk, bne_self_eq_false, Bool.false_eq_true, if_false, ih, List.lookup_cons]
      by_cases hb : b = a
      · simp [hb]
      · have : (b == a) = false := by simpa using hb
        simp [hb, this]
    · have hk' : (k != a) = true := by simpa using hk
      simp only [hk', if_true, List.lookup_cons]
      by_cases hb : b = k
      · simp [hb, hk]
      · have : (b == k) = false := by simpa using hb
        simp only [this, ih]

/-- After removing, the location is empty and every other is as it was. -/
theorem get?_erase (fs : Files) (a b : Location) (h : b ≠ []) :
    (fs.erase a).get? b = if b = a then none else fs.get? b := by
  simp only [get?, erase, h, if_false]
  exact lookup_filter_ne _ _ _

/-- After writing, the location holds the entry and every other is as it was. -/
theorem get?_set (fs : Files) (a b : Location) (entry : Entry) (h : b ≠ []) :
    (fs.set a entry).get? b = if b = a then some entry else fs.get? b := by
  have := get?_erase fs a b h
  simp only [get?, h, if_false, set, List.lookup_cons] at this ⊢
  by_cases hb : b = a
  · simp [hb]
  · have hb' : (b == a) = false := by simpa using hb
    simp [hb, hb', this]

/-- Whether a directory stands at a location. -/
def isDirectoryAt (fs : Files) (at_ : Location) : Bool := fs.get? at_ = some .directory

/-- The names in a directory. -/
def namesIn (fs : Files) (at_ : Location) : List String :=
  fs.entries.filterMap fun e =>
    match e.1.getLast? with
    | some name => if e.1.dropLast = at_ then some name else none
    | none => none

/-- Remove the directory at a location and everything below it. -/
def eraseBelow (fs : Files) (at_ : Location) : Files where
  entries := fs.entries.filter fun e => !at_.isPrefixOf e.1
  removed := at_ :: fs.removed

/-- Remove everything below a directory, but not the directory. -/
def clear (fs : Files) (at_ : Location) : Files :=
  let isBelow (e : Location × Entry) : Bool := at_.isPrefixOf e.1 && e.1 ≠ at_
  let directories := fs.entries.filter fun e => isBelow e && e.2 = .directory
  { entries := fs.entries.filter fun e => !isBelow e
    removed := directories.map (·.1) ++ fs.removed }

/-- Whether the directory that stood at a location when `wd` was entered has been removed since,
itself or together with one above it. -/
def isGone (fs : Files) (wd : WorkingDir) (at_ : Location) : Bool :=
  (fs.removed.take (fs.removed.length - wd.entered)).any fun r => r.isPrefixOf at_

/-- Enter the directory at a location. -/
def enter (fs : Files) (at_ : Location) : WorkingDir := { at_, entered := fs.removed.length }

/-- Put a file at a location together with the directories that lead to it. -/
def plant (fs : Files) (at_ : Location) (entry : Entry) : Files :=
  let leading := (List.range at_.length).map fun n => at_.take n
  let fs := leading.foldl
    (fun fs dir => if (fs.get? dir).isSome then fs else fs.set dir .directory) fs
  fs.set at_ entry

end Files

end CxxScript

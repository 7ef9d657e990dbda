import CxxScript.Host.Walk

/-!
# Reading and changing files

The calls the library needs, each with its conditions: reading a whole file, opening for appending
(which creates but never truncates), creating (which truncates), adding bytes to what has been
opened, making directories, and removing files and directories. An operation that fails leaves the
files as they were, except that making a chain of directories keeps those already made and removing
a tree does not bring back what was in it.

Entries carry no permissions, so the usual reason why nothing can be written beside a file, that the
directory is not the user's, does not occur. What is written elsewhere then asks only whether the
call was refused, and other refusals do occur: a directory stands where the file would go, a name is
too long, a directory is missing or has been removed, the place is below `/proc` or `/sys`, or a
device cannot be opened.
-/

set_option autoImplicit false

namespace CxxScript.Files

/-- The bytes of the file a path leads to. A device reads as if it were empty. -/
def read (fs : Files) (wd : WorkingDir) (p : Path) : Except IoError Bytes :=
  match fs.find wd p with
  | .ok (_, .file content _) => .ok content
  | .ok (_, .device d) => d.opening.map fun _ => []
  | .ok _ => .error (.system .isDirectory)
  | .error e => .error e

/-- The text of the file a path leads to. -/
def readText (fs : Files) (wd : WorkingDir) (p : Path) : Except IoError String :=
  match fs.read wd p with
  | .ok content =>
    match Text.Utf8.decode? content with
    | some text => .ok text
    | none => .error .notText
  | .error e => .error e

/-- Make an entry at a free location. Below `/proc` and `/sys` only the system makes entries. -/
def make (fs : Files) (at_ : Location) (entry : Entry) : Except IoError Files :=
  match at_, entry with
  | "proc" :: _, _ => .error (.system .noEntry)
  | "sys" :: _, .directory => .error (.system .notPermitted)
  | "sys" :: _, _ => .error (.system .accessDenied)
  | _, _ => .ok (fs.set at_ entry)

/-- Open a file for appending; a missing one is created empty. Gives the file's location. -/
def openAppend (fs : Files) (wd : WorkingDir) (p : Path) : Except IoError (Location × Files) :=
  match fs.locate wd .creation p with
  | .ok (.present at_ (.file ..)) => .ok (at_, fs)
  | .ok (.present at_ (.device d)) => d.opening.map fun _ => (at_, fs)
  | .ok (.present ..) => .error (.system .isDirectory)
  | .ok (.missing at_) => (fs.make at_ (.file [] false)).map fun fs => (at_, fs)
  | .error e => .error e

/-- Open a file for writing from its start: an existing one is emptied, a missing one created.
Gives the file's location. -/
def create (fs : Files) (wd : WorkingDir) (p : Path) : Except IoError (Location × Files) :=
  match fs.locate wd .creation p with
  | .ok (.present at_ (.file _ executable)) => .ok (at_, fs.set at_ (.file [] executable))
  | .ok (.present at_ (.device d)) => d.opening.map fun _ => (at_, fs)
  | .ok (.present ..) => .error (.system .isDirectory)
  | .ok (.missing at_) => (fs.make at_ (.file [] false)).map fun fs => (at_, fs)
  | .error e => .error e

/-- Why what stands at a location takes no bytes, if it takes none. -/
def refusal? (fs : Files) (at_ : Location) : Option Errno :=
  match fs.get? at_ with
  | some (.device d) => d.refusal?
  | _ => none

/-- Add bytes to the file at a location. Adding none always goes well. -/
def append (fs : Files) (at_ : Location) (bytes : Bytes) : Except IoError Files :=
  match fs.get? at_ with
  | some (.file content executable) => .ok (fs.set at_ (.file (content ++ bytes) executable))
  | _ =>
    match bytes, fs.refusal? at_ with
    | _ :: _, some e => .error (.system e)
    | _, _ => .ok fs

/-- Write a whole file. -/
def write (fs : Files) (wd : WorkingDir) (p : Path) (bytes : Bytes) : Except IoError Files :=
  match fs.create wd p with
  | .ok (at_, fs) => fs.append at_ bytes
  | .error e => .error e

/-- A text, written backwards, without the slashes at its end. -/
def dropSlashes : List Char → List Char
  | '/' :: c :: rest => dropSlashes (c :: rest)
  | s => s

/-- A path without the slashes at its end: it leads to what its last name stands for, even if that
is a link. -/
def bare (p : Path) : Path := ⟨String.ofList (dropSlashes p.text.toList.reverse).reverse⟩

/-- Make one directory. -/
def makeDirectory (fs : Files) (wd : WorkingDir) (p : Path) : Except IoError Files :=
  match fs.locate wd .linkItself (bare p) with
  | .ok (.present ..) => .error (.system .exists_)
  | .ok (.missing at_) => fs.make at_ .directory
  | .error e => .error e

/-- The outcome of making a directory that may be there already. -/
def madeOrThere (fs : Files) (wd : WorkingDir) (p : Path) : Except IoError Unit × Files :=
  match fs.makeDirectory wd p with
  | .ok fs => (.ok (), fs)
  | .error e => if fs.isDirectory wd p then (.ok (), fs) else (.error e, fs)

/-- Whether a change failed because something was missing on the way. -/
def lacksEntry : Except IoError Files → Bool
  | .error cause => cause = .system .noEntry
  | .ok _ => false

/-- Make a directory, and where there is none to put it in, make that one first, with `above`. -/
def makeDirectoryBelow (wd : WorkingDir) (above : Path → Files → Except IoError Unit × Files)
    (p : Path) (fs : Files) : Except IoError Unit × Files :=
  if p.text.isEmpty then (.ok (), fs)
  else if lacksEntry (fs.makeDirectory wd p) then
    match p.parent? with
    | some parent =>
      match above parent fs with
      | (.ok (), fs) => fs.madeOrThere wd p
      | failed => failed
    | none => (.error .noParent, fs)
  else fs.madeOrThere wd p

/-- Make a directory, and before it those above it, up to `depth` of them, where they are
missing. -/
def makeDirectoriesWithin (wd : WorkingDir) : Nat → Path → Files → Except IoError Unit × Files
  | 0 => makeDirectoryBelow wd fun _ fs => (.error .noParent, fs)
  | depth + 1 => makeDirectoryBelow wd (makeDirectoriesWithin wd depth)

/-- Make a directory together with those above it. -/
def makeDirectories (fs : Files) (wd : WorkingDir) (p : Path) : Except IoError Unit × Files :=
  makeDirectoriesWithin wd p.components.length p fs

/-- Remove the file or link a path names. A slash behind the name asks for a directory, which is
never removed. -/
def remove (fs : Files) (wd : WorkingDir) (p : Path) : Except IoError Files :=
  match fs.locate wd .linkItself (bare p) with
  | .ok (.present _ .directory) => .error (.system .isDirectory)
  | .ok (.present at_ _) =>
    if bare p = p then .ok (fs.erase at_) else .error (.system .notDirectory)
  | .ok (.missing _) => .error (.system .noEntry)
  | .error e => .error e

/-- Remove an empty directory, which the last name of the path has to name. -/
def removeDirectory (fs : Files) (wd : WorkingDir) (p : Path) : Except IoError Files :=
  match fs.locate wd .linkItself (bare p), (names (bare p).text).getLast? with
  | .ok (.present _ .directory), some "." => .error (.system .invalidArgument)
  | .ok (.present _ .directory), some ".." => .error (.system .notEmpty)
  | .ok (.present at_ .directory), _ =>
    if at_ = [] then .error (.system .busy)
    else if (fs.namesIn at_).isEmpty then .ok (fs.eraseBelow at_)
    else .error (.system .notEmpty)
  | .ok (.present ..), _ => .error (.system .notDirectory)
  | .ok (.missing _), _ => .error (.system .noEntry)
  | .error e, _ => .error e

/-- Remove a directory together with all that is in it, or a link to one. It does not matter if the
directory is gone with what was in it. -/
def removeTree (fs : Files) (wd : WorkingDir) (p : Path) : Except IoError Unit × Files :=
  match fs.locate wd .linkItself p with
  | .ok (.present at_ .directory) =>
    let cleared := fs.clear at_
    match cleared.removeDirectory wd p with
    | .ok fs => (.ok (), fs)
    | .error e => (if e = .system .noEntry then .ok () else .error e, cleared)
  | .ok (.present at_ (.link _)) => (.ok (), fs.erase at_)
  | .ok (.present ..) => (.error (.system .notDirectory), fs)
  | .ok (.missing _) => (.error (.system .noEntry), fs)
  | .error e => (.error e, fs)

end CxxScript.Files

import CxxScript.Host.Files

/-!
# Following a path

`walk` takes a path one name at a time, as the system does: `..` goes to the parent of where the
walk really is, and a link sends the walk along its target, at most `maxLinks` times in all. The
last name may be missing as long as its directory is there, so the same walk serves both opening
and creating. A relative path starts in the working directory, and where that has been removed
`emerge` first has to find the way out of it.
-/

set_option autoImplicit false

namespace CxxScript.Files

/-- Where a path leads: to an entry, or to a free name in a directory. -/
inductive Found where
  | present (at_ : Location) (entry : Entry)
  | missing (at_ : Location)
  deriving DecidableEq, Repr

/-- What a path is followed for: to use what it leads to, to use a link that it ends in, or to open
a file that may have to be made first. -/
inductive Purpose where
  | target
  | linkItself
  | creation
  deriving DecidableEq, Repr

/-- The number of links one walk may follow. -/
def maxLinks : Nat := 40

/-- The number of bytes a name may have. -/
def maxNameBytes : Nat := 255

/-- The number of bytes a path may have. -/
def maxPathBytes : Nat := 4095

/-- The names a path text is made of; an empty one stands between two slashes. -/
def names (text : String) : List String := (Path.pieces text.toList).map String.ofList

/-- Where a path text starts when it is used in the directory `at_`. -/
def startOf (at_ : Location) (text : String) : Location :=
  if (⟨text⟩ : Path).isAbsolute then [] else at_

/-- Follow `todo` from `at_`. Where there is a link on the way, `along` follows what its target and
the names behind it spell. A file that is to be made cannot have a slash behind its name. -/
def walkWith (fs : Files) (purpose : Purpose)
    (along : Location → List String → Except Errno Found) (at_ : Location) (todo : List String) :
    Except Errno Found :=
  match todo with
  | [] =>
    match fs.get? at_ with
    | some entry => .ok (.present at_ entry)
    | none => .error .noEntry
  | name :: rest =>
    match fs.get? at_ with
    | none => .error .noEntry
    | some .directory =>
      if name = "" || name = "." then walkWith fs purpose along at_ rest
      else if name = ".." then walkWith fs purpose along at_.dropLast rest
      else if purpose = .creation && !rest.isEmpty && rest.all String.isEmpty then
        .error .isDirectory
      else if name.utf8ByteSize > maxNameBytes then .error .nameTooLong
      else match fs.get? (at_ ++ [name]) with
        | none => if rest.isEmpty then .ok (.missing (at_ ++ [name])) else .error .noEntry
        | some (.link target) =>
          if rest.isEmpty && purpose = .linkItself then
            .ok (.present (at_ ++ [name]) (.link target))
          else along (startOf at_ target) (names target ++ rest)
        | some _ => walkWith fs purpose along (at_ ++ [name]) rest
    | some _ => .error .notDirectory

/-- Follow names from a location, through a number of links at most. -/
def walk (fs : Files) (purpose : Purpose) : Nat → Location → List String → Except Errno Found
  | 0 => fs.walkWith purpose fun _ _ => .error .tooManyLinks
  | links + 1 => fs.walkWith purpose (fs.walk purpose links)

/-- The way out of a working directory that is gone: it holds no names, but `..` still leads to
where it was. -/
def emerge (fs : Files) (wd : WorkingDir) (at_ : Location) :
    List String → Except Errno (Location × List String)
  | [] => .ok (at_, [])
  | name :: rest =>
    if !fs.isGone wd at_ then .ok (at_, name :: rest)
    else if name = ".." then emerge fs wd at_.dropLast rest
    else if name = "" || name = "." then emerge fs wd at_ rest
    else .error .noEntry

/-- Follow the names of a path text from the root or from the working directory. -/
def follow (fs : Files) (wd : WorkingDir) (purpose : Purpose) (text : String) :
    Except Errno Found :=
  if (⟨text⟩ : Path).isAbsolute then walk fs purpose maxLinks [] (names text)
  else match emerge fs wd wd.at_ (names text) with
    | .error e => .error e
    | .ok (at_, []) =>
      if fs.isGone wd at_ then .ok (.present at_ .directory) else walk fs purpose maxLinks at_ []
    | .ok (at_, todo) => walk fs purpose maxLinks at_ todo

/-- Follow a path from the working directory. -/
def locate (fs : Files) (wd : WorkingDir) (purpose : Purpose) (p : Path) : Except IoError Found :=
  if p.text.toList.contains '\x00' then .error .nulInName
  else if p.text.isEmpty then .error (.system .noEntry)
  else if p.text.utf8ByteSize > maxPathBytes then .error (.system .nameTooLong)
  else match fs.follow wd purpose p.text with
    | .ok found => .ok found
    | .error e => .error (.system e)

/-- The entry a path leads to, links followed. -/
def find (fs : Files) (wd : WorkingDir) (p : Path) : Except IoError (Location × Entry) :=
  match fs.locate wd .target p with
  | .ok (.present at_ entry) => .ok (at_, entry)
  | .ok (.missing _) => .error (.system .noEntry)
  | .error e => .error e

/-- Whether a path leads to a regular file. -/
def isFile (fs : Files) (wd : WorkingDir) (p : Path) : Bool :=
  match fs.find wd p with
  | .ok (_, entry) => entry.isFile
  | .error _ => false

/-- Whether a path leads to a directory. -/
def isDirectory (fs : Files) (wd : WorkingDir) (p : Path) : Bool :=
  match fs.find wd p with
  | .ok (_, entry) => entry = .directory
  | .error _ => false

/-- The location of the working directory, if it is still there. -/
def workingLocation? (fs : Files) (wd : WorkingDir) : Option Location :=
  if !fs.isGone wd wd.at_ && fs.isDirectoryAt wd.at_ then some wd.at_ else none

/-- The working directory of a process that goes to the directory a path leads to. The way up from a
directory that is gone may end in another one that is gone. -/
def goTo (fs : Files) (wd : WorkingDir) (p : Path) : Except IoError WorkingDir :=
  match fs.find wd p with
  | .ok (at_, .directory) =>
    let isLost := !p.isAbsolute && fs.isGone wd wd.at_ && fs.isGone wd at_ && at_.isPrefixOf wd.at_
    .ok (if isLost then { wd with at_ } else fs.enter at_)
  | .ok _ => .error (.system .notDirectory)
  | .error e => .error e

/-- The location of the file a path leads to, if it leads to anything. The names are looked up one
by one, so the path as a whole may have any length; a relative one needs a working directory that
has a location. -/
def canonical? (fs : Files) (wd : WorkingDir) (p : Path) : Option Location :=
  if p.text.isEmpty || p.text.toList.contains '\x00' then none
  else if !p.isAbsolute && (fs.workingLocation? wd).isNone then none
  else match fs.follow wd .target p.text with
    | .ok (.present at_ _) => some at_
    | _ => none

/-- The key by which a file is known however its path is spelled: where it really is, and for
one that does not exist where it would be if no link were on the way. -/
def identity (fs : Files) (wd : WorkingDir) (p : Path) : Path :=
  match fs.canonical? wd p with
  | some at_ => at_.path
  | none => p.lexicalKey (fs.workingLocation? wd)

end CxxScript.Files

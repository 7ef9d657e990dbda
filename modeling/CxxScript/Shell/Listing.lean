import CxxScript.Host.Access
import CxxScript.Shell.Pattern

/-!
# File name patterns

A field with a pattern character in it stands for the paths that fit it, name by name, in the order
of their characters; where none fits it stands for itself. A name that starts with a dot has to be
asked for by a dot.
-/

set_option autoImplicit false

namespace CxxScript.Shell.Marked

/-- Whether a field holds a pattern. -/
def isPattern (m : Marked) : Bool := m.any fun c => !c.2 && "*?[".toList.contains c.1

/-- The parts of a path between its slashes. -/
def names : Marked → List Marked
  | [] => [[]]
  | c :: rest =>
    match names rest with
    | [] => [[]]
    | name :: more => if c.1 == '/' then [] :: name :: more else (c :: name) :: more

/-- The names in the directory that a path leads to, which may be empty for the working
directory. -/
def namesIn (fs : Files) (wd : WorkingDir) (dir : String) : List String :=
  match fs.find wd ⟨if dir.isEmpty then "." else dir⟩ with
  | .ok (at_, .directory) => "." :: ".." :: fs.namesIn at_
  | _ => []

/-- The names that fit a pattern, in order. -/
def fitting (fs : Files) (wd : WorkingDir) (dir : String) (pattern : Marked) : List String :=
  let dotted := pattern.head?.any fun c => c.1 == '.'
  let fits := (namesIn fs wd dir).filter fun name =>
    pattern.fits name.toList && (dotted || !name.startsWith ".")
  fits.mergeSort fun a b => a ≤ b

/-- Whether there is something at a path. -/
def isThere (fs : Files) (wd : WorkingDir) (path : String) : Bool :=
  match fs.locate wd .linkItself ⟨path⟩ with
  | .ok (.present ..) => true
  | _ => false

/-- The paths that fit the names of a pattern behind a path that has been found. -/
def pathsFrom (fs : Files) (wd : WorkingDir) (found : String) : List Marked → List String
  | [] => []
  | [last] =>
    if last.isPattern then (fitting fs wd found last).map (found ++ ·)
    else if isThere fs wd (found ++ last.text) then [found ++ last.text] else []
  | name :: rest =>
    if name.isPattern then
      (fitting fs wd found name).flatMap fun n => pathsFrom fs wd (found ++ n ++ "/") rest
    else pathsFrom fs wd (found ++ name.text ++ "/") rest

/-- What a field stands for: the paths that fit it, or itself. -/
def listed (fs : Files) (wd : WorkingDir) (m : Marked) : List String :=
  if m.isPattern then
    match pathsFrom fs wd "" m.names with
    | [] => [m.text]
    | paths => paths
  else [m.text]

end CxxScript.Shell.Marked

import CxxScript.Host.Errno

/-!
# The search path

A program that is named without a slash is looked for along a search path: a text with directories
between colons, where an empty one stands for the working directory. `firstOf` tries one after the
other; what goes wrong at one of them usually means no more than that the program is not there.
-/

set_option autoImplicit false

namespace CxxScript.SearchPath

/-- The number of bytes a directory on the search path may have. -/
def maxEntryBytes : Nat := 4095

/-- The number of bytes the name of a program may have. -/
def maxNameBytes : Nat := 255

/-- The pieces of a text between colons, empty ones included. -/
def cut : List Char → List (List Char)
  | [] => [[]]
  | c :: rest =>
    if c == ':' then [] :: cut rest
    else match cut rest with
      | [] => [[c]]
      | piece :: more => (c :: piece) :: more

/-- The directories on a search path. One that is too long counts as an empty one, except at the
end, where it does not count. -/
def entries (path : String) : List String :=
  let all := (cut path.toList).map String.ofList
  let isTooLong (dir : String) : Bool := dir.utf8ByteSize > maxEntryBytes
  (if all.getLast?.any isTooLong then all.dropLast else all).map fun dir =>
    if isTooLong dir then "" else dir

/-- The path of a program in a directory on the search path. -/
def pathIn (dir name : String) : String := if dir.isEmpty then name else s!"{dir}/{name}"

/-- The errors that send the search on: something is missing on the way, or may not be used. -/
def isPassedOver (e : Errno) : Bool :=
  [2, 13, 19, 20, 110, 116].contains e.code

/-- Try paths in turn. `failure` is how the search has failed so far, `denied` tells that access was
denied on the way, which counts more than any later failure. -/
def tryEach {α : Type} (attempt : String → Except Errno α) (failure : Errno) (denied : Bool) :
    List String → Except Errno α
  | [] => .error (if denied then .accessDenied else failure)
  | path :: rest =>
    match attempt path with
    | .ok a => .ok a
    | .error e =>
      if isPassedOver e then tryEach attempt e (denied || e = .accessDenied) rest else .error e

/-- Try a program in each directory of a search path. -/
def firstOf {α : Type} (attempt : String → Except Errno α) (path name : String) :
    Except Errno α :=
  if name.isEmpty then .error .noEntry
  else if name.toList.contains '/' then attempt name
  else if name.utf8ByteSize > maxNameBytes then .error .nameTooLong
  else tryEach attempt .noEntry false ((entries path).map (pathIn · name))

end CxxScript.SearchPath

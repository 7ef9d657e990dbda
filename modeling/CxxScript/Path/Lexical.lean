import CxxScript.Path.Basic

/-!
# Paths without the file system

A location is a list of names from the root. Seen from a working location every path has absolute
components, and collapsing `..` against the names before it gives the location that the path would
have if no link were on the way. The same collapse, written on components, gives the lexical key
of a file that does not exist.
-/

set_option autoImplicit false

namespace CxxScript

/-- A place in the file system, as the names that lead to it from the root. -/
abbrev Location := List String

namespace Location

/-- The path of a location. -/
def path (at_ : Location) : Path := Path.ofComponents (.root :: at_.map .name)

end Location

namespace Path

/-- The components of a path seen from the working location; an empty path is no path, and a
relative path means nothing where there is no working location. -/
def absolute? (cwd : Option Location) (p : Path) : Option (List Component) :=
  if p.text.isEmpty then none
  else if p.isAbsolute then some p.components
  else cwd.map fun names => .root :: names.map .name ++ p.components.filter (· ≠ .here)

/-- One step of the collapse to names: a name is added, `..` takes the last one away. -/
def collapseStep (names : Location) : Component → Location
  | .name text => names ++ [text]
  | .up => names.dropLast
  | .root | .here => names

/-- The names that are left when `..` has taken away the name before it. -/
def collapse (cs : List Component) : Location := cs.foldl collapseStep []

/-- One step of the collapse to components: at the root `..` says nothing, and where there is
nothing to take away it stays. -/
def keyStep (key : List Component) : Component → List Component
  | .here => key
  | .root => [.root]
  | .name text => key ++ [.name text]
  | .up =>
    match key.getLast? with
    | some (.name _) => key.dropLast
    | _ => if key.head? = some .root then key else key ++ [.up]

/-- The path that the components spell once `..` is collapsed. -/
def collapsed (cs : List Component) : Path := ofComponents (cs.foldl keyStep [])

/-- The components by which the path is known without the file system. -/
def lexicalComponents (cwd : Option Location) (p : Path) : List Component :=
  (p.absolute? cwd).getD p.components

/-- The key of a path whose file does not exist. -/
def lexicalKey (cwd : Option Location) (p : Path) : Path := collapsed (p.lexicalComponents cwd)

/-- The place of `p` below `root`: its collapsed absolute names, one after the other. -/
def relocate (root : Path) (cwd : Option Location) (p : Path) : Path :=
  (collapse (p.lexicalComponents cwd)).foldl (fun at_ name => at_.join ⟨name⟩) root

/-- The path `target` as named inside the file `unit`: relative to that file's directory. -/
def resolveFrom (unit : Path) (target : String) : Path :=
  if (⟨target⟩ : Path).isAbsolute then normalize ⟨target⟩
  else normalize ((unit.parent?.getD ⟨""⟩).join ⟨target⟩)

end Path

end CxxScript

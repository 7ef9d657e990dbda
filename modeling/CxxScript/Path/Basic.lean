/-!
# Paths

A path is a text. What it means is its list of components: a leading `/` is the root, repeated and
trailing slashes say nothing, and `.` says nothing except where it begins a relative path. Paths
are compared, joined, shortened and renamed through their components; text that a user wrote stays
as it was written wherever a function has no reason to touch it.
-/

set_option autoImplicit false

namespace CxxScript

/-- A file path as it was written. -/
structure Path where
  text : String
  deriving DecidableEq, Repr, Inhabited

namespace Path

/-- One step of a path. -/
inductive Component where
  | root
  | here
  | up
  | name (text : String)
  deriving DecidableEq, Repr

/-- How a component is written. -/
def Component.text : Component → String
  | .root => "/"
  | .here => "."
  | .up => ".."
  | .name text => text

/-- The pieces of a text between slashes, empty ones included. -/
def pieces : List Char → List (List Char)
  | [] => [[]]
  | c :: rest =>
    if c == '/' then [] :: pieces rest
    else match pieces rest with
      | [] => [[c]]
      | piece :: more => (c :: piece) :: more

/-- A text always has a piece. -/
theorem pieces_ne_nil (s : List Char) : pieces s ≠ [] := by
  fun_induction pieces s <;> simp_all

/-- The component a piece stands for, where it stands for one. -/
def Component.ofPiece? (piece : List Char) : Option Component :=
  if piece = [] || piece = ['.'] then none
  else if piece = ['.', '.'] then some .up
  else some (.name (String.ofList piece))

/-- Whether the path begins at the root. -/
def isAbsolute (p : Path) : Bool := p.text.toList.head? == some '/'

/-- The components of a path. -/
def components (p : Path) : List Component :=
  let all := pieces p.text.toList
  let steps := all.filterMap Component.ofPiece?
  if p.isAbsolute then .root :: steps
  else if all.head? = some ['.'] then .here :: steps
  else steps

/-- The path `q` as seen from `p`: `q` itself when it is absolute, else `q` after `p`. -/
def join (p q : Path) : Path :=
  if q.isAbsolute then q
  else if p.text.isEmpty || p.text.toList.getLast? == some '/' then ⟨p.text ++ q.text⟩
  else ⟨p.text ++ "/" ++ q.text⟩

/-- The path that a list of components spells, each joined to those before it. -/
def ofComponents (cs : List Component) : Path :=
  cs.foldl (fun p c => p.join ⟨c.text⟩) ⟨""⟩

/-- Drop the `.` components; what is left of nothing is `.` itself. -/
def normalize (p : Path) : Path :=
  match p.components.filter (· ≠ .here) with
  | [] => ⟨"."⟩
  | cs => ofComponents cs

/-- A text, written backwards, without the slashes and `.` components at its end. -/
def dropTail : List Char → List Char
  | '/' :: rest => dropTail rest
  | '.' :: '/' :: rest => dropTail rest
  | s => s

/-- The path without its last component; a root and an empty path have none to lose. What stands in
front of that component stays as it was written. -/
def parent? (p : Path) : Option Path :=
  match p.components.reverse with
  | [] | .root :: _ => none
  | [_, .root] => some ⟨"/"⟩
  | last :: _ =>
    let before := (dropTail p.text.toList.reverse).drop last.text.length
    some ⟨String.ofList (dropTail before).reverse⟩

/-- The last component, if it is a name. -/
def fileName? (p : Path) : Option String :=
  match p.components.getLast? with
  | some (.name text) => some text
  | _ => none

/-- A name cut at its last dot: what stands before it and, where there is such a dot behind a
non-empty start, what stands after it. -/
def cutName (name : String) : String × Option String :=
  let reversed := name.toList.reverse
  let after := reversed.takeWhile (· ≠ '.')
  match reversed.dropWhile (· ≠ '.') with
  | _dot :: c :: before =>
    (String.ofList (c :: before).reverse, some (String.ofList after.reverse))
  | _ => (name, none)

/-- The file name without its extension. -/
def stem? (p : Path) : Option String := p.fileName?.map fun name => (cutName name).1

/-- The part of the file name after its last dot. -/
def extension? (p : Path) : Option String := p.fileName?.bind fun name => (cutName name).2

/-- The path with `extension` in place of its own; an empty one leaves no dot. A path without a
file name stays as it is. The old extension goes before the new one comes, and where two dots are
left at the end there is no longer a file name to extend. -/
def withExtension (p : Path) (extension : String) : Path :=
  match p.fileName? with
  | none => p
  | some name =>
    let written := p.text.toList.reverse
    let before := (dropTail written).drop name.length
    let stem := (cutName name).1
    if stem == "." && dropTail written == written then ⟨String.ofList before.reverse ++ ".."⟩
    else
      let ending := if extension.isEmpty then "" else "." ++ extension
      ⟨String.ofList before.reverse ++ stem ++ ending⟩

/-- The path with its file name replaced, or with `name` added where it has none. -/
def withFileName (p : Path) (name : String) : Path :=
  match p.fileName?, p.parent? with
  | some _, some dir => dir.join ⟨name⟩
  | _, _ => p.join ⟨name⟩

end Path

end CxxScript

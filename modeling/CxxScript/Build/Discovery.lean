import CxxScript.Build.Failure

/-!
# Collecting the files of a script

Starting from the script, every known unit is scanned once, in order; the units it refers to join
the end of the list unless the same file is known already, however it is spelled. So a unit stands
where it was first mentioned, and files that refer to each other in a circle do no harm. The flags
of a unit are pushed as soon as it is scanned. A scan that fails ends the collection.
-/

set_option autoImplicit false

namespace CxxScript.Discovery

/-- Whether a file is among some units. -/
def isKnown (known : List CompilationUnit) (u : CompilationUnit) : Bool := known.any (·.same u)

/-- The units that are new to the known ones, each file once. -/
def fresh (known : List CompilationUnit) : List CompilationUnit → List CompilationUnit
  | [] => []
  | u :: rest =>
    if isKnown known u then fresh known rest else u :: fresh (known ++ [u]) rest

/-- Tell which units have joined. -/
def announce (units : List CompilationUnit) : StateM Host Unit :=
  units.forM fun u => Host.note (.discovered u.path)

/-- Take in a unit that has been scanned: its flags join the toolset, and the units it refers to
that are new to the known ones are told of and given back. -/
def takeIn (known : List CompilationUnit) (u : CompilationUnit) (found : List CompilationUnit)
    (ts : Toolset) : StateM Host (Toolset × List CompilationUnit) := do
  let ts ← ts.pushFlags u.flags .normal
  let joined := fresh known found
  announce joined
  return (ts, joined)

/-- Go through the units of `todo`, those of `done` being behind. The number of units that can be
gone through is given from the start. -/
def collect (m : Machine) (cfg : Config) :
    Nat → List CompilationUnit → List CompilationUnit → Toolset →
      StateM Host (Except Failure Unit × List CompilationUnit × Toolset)
  | _, done, [], ts => return (.ok (), done, ts)
  | 0, done, todo, ts => return (.error .endless, done ++ todo, ts)
  | fuel + 1, done, u :: todo, ts => do
    if u.scanned then collect m cfg fuel (done ++ [u]) todo ts
    else match ← u.scan m cfg with
      | (.error e, u) => return (.error (.directive e), done ++ u :: todo, ts)
      | (.ok found, u) =>
        let (ts, joined) ← takeIn (done ++ u :: todo) u found ts
        collect m cfg fuel (done ++ [u]) (todo ++ joined) ts

/-- At least the number of texts that a path the system follows may have: every one of its bytes has
one of 256 values or is no longer there. -/
def spellings : Nat := Nat.pow 257 Files.maxPathBytes

/-- The number of units that can be gone through. A unit joins under a key that no other has, and
while files are only added one path goes by at most three keys: where its file really is, and until
there is one its lexical key, with a working location or without. The last unit may be one that
cannot be read. -/
def budget (units : List CompilationUnit) : Nat := units.length + 3 * spellings + 1

/-- Scan every unit that is not scanned yet, and those that join on the way. -/
def run (m : Machine) (cfg : Config) (units : List CompilationUnit) (ts : Toolset) :
    StateM Host (Except Failure Unit × List CompilationUnit × Toolset) := do
  collect m cfg (budget units) [] units ts

end CxxScript.Discovery

import CxxScript.Build.Discovery

/-!
# Building a script

A build collects the script's files, compiles each source and links them into the executable of the
script itself. Before each compilation and before the link it looks for an interrupt. Whatever the
outcome, the copies and objects are removed at the end, and where the build failed the executable
too.
-/

set_option autoImplicit false

namespace CxxScript

/-- The build of a script: its own unit first, then those that joined, in order. -/
structure Build where
  config : Config
  primary : CompilationUnit
  others : List CompilationUnit := []
  deriving DecidableEq, Repr

namespace Build

/-- The build of the script at a path. -/
def ofPath (m : Machine) (h : Host) (cfg : Config) (script : Path) : Build where
  config := cfg
  primary := .ofPath m h .source script

/-- All units. -/
def units (b : Build) : List CompilationUnit := b.primary :: b.others

/-- The build with its units replaced. -/
def withUnits (b : Build) : List CompilationUnit → Build
  | [] => b
  | primary :: others => { b with primary, others }

/-- Units that replace the build's are its units. -/
theorem units_withUnits (b : Build) {units : List CompilationUnit} (h : units ≠ []) :
    (b.withUnits units).units = units := by
  cases units with
  | nil => exact absurd rfl h
  | cons u us => rfl

/-- Collect the script's files. -/
def discover (m : Machine) (b : Build) (ts : Toolset) :
    StateM Host (Except Failure Unit × Build × Toolset) := do
  let (result, units, ts) ← Discovery.run m b.config b.units ts
  return (result, b.withUnits units, ts)

/-- Compile each source of some units, in order. -/
def compileUnits (m : Machine) : List CompilationUnit → Toolset →
    StateM Host (Except Failure Unit × List CompilationUnit × Toolset)
  | [], ts => return (.ok (), [], ts)
  | u :: rest, ts => do
    if u.isHeader then
      let (result, rest, ts) ← compileUnits m rest ts
      return (result, u :: rest, ts)
    match ← Host.poll m with
    | some signal => return (.error (.process (.interrupted signal)), u :: rest, ts)
    | none =>
      match ← ts.compile m u with
      | (.error e, ts, u) => return (.error (.buildTool e), u :: rest, ts)
      | (.ok (), ts, u) =>
        let (result, rest, ts) ← compileUnits m rest ts
        return (result, u :: rest, ts)

/-- Compile the sources. -/
def compile (m : Machine) (b : Build) (ts : Toolset) :
    StateM Host (Except Failure Unit × Build × Toolset) := do
  let (result, units, ts) ← compileUnits m b.units ts
  return (result, b.withUnits units, ts)

/-- Link the sources into the script's executable. -/
def link (m : Machine) (b : Build) (ts : Toolset) :
    StateM Host (Except Failure Path × Build × Toolset) := do
  match ← Host.poll m with
  | some signal => return (.error (.process (.interrupted signal)), b, ts)
  | none =>
    let (result, ts, units) ← ts.link m b.units
    return (result.mapError .buildTool, b.withUnits units, ts)

/-- Remove the copies and objects of some units. -/
def cleanUnits (m : Machine) (cfg : Config) : List CompilationUnit →
    StateM Host (List CompilationUnit)
  | [] => return []
  | u :: rest => do
    let u ← u.cleanup m cfg
    return u :: (← cleanUnits m cfg rest)

/-- Remove the copies and objects. -/
def cleanup (m : Machine) (b : Build) : StateM Host Build := do
  return b.withUnits (← cleanUnits m b.config b.units)

/-- Remove the script's executable. -/
def removeExecutable (m : Machine) (b : Build) : StateM Host Build := do
  return { b with primary := ← b.primary.removeExecutable m b.config }

/-- Collect, compile and link, up to the first failure. -/
def steps (m : Machine) (b : Build) (ts : Toolset) :
    StateM Host (Except Failure Path × Build × Toolset) := do
  match ← b.discover m ts with
  | (.error f, b, ts) => return (.error f, b, ts)
  | (.ok (), b, ts) =>
    match ← b.compile m ts with
    | (.error f, b, ts) => return (.error f, b, ts)
    | (.ok (), b, ts) => b.link m ts

/-- Build the script, and clear up. -/
def build (m : Machine) (b : Build) (ts : Toolset) :
    StateM Host (Except Failure Path × Build × Toolset) := do
  let (result, b, ts) ← b.steps m ts
  let b ← b.cleanup m
  match result with
  | .ok executable => return (.ok executable, b, ts)
  | .error f => return (.error f, ← b.removeExecutable m, ts)

/-- Start the script's program. -/
def launch (m : Machine) (b : Build) (l : Launcher) (cfg : Config) (args : List String) :
    StateM Host (Except Failure ExitStatus × Build) := do
  let (result, primary) ← l.launch m cfg b.primary args
  return (result.mapError .ofLaunch, { b with primary })

end Build

end CxxScript

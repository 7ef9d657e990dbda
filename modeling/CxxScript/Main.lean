import CxxScript.Cli.Run
import CxxScript.Shell.Run

/-!
# The command line

The outermost layer: it reads the files around the working directory into a machine, lets
`Cli.run` do its work there, shows what was written and brings the changed files back. The
programs of the machine are the scripts it finds and the machine's own utilities. It decides
nothing about the work itself.
-/

set_option autoImplicit false

namespace CxxScript.CommandLine

/-- The environment variables that the tool reads. -/
def variableNames : List String := [
  "PATH", "HOME", "CXX", "PKG_CONFIG", Cli.RcFile.placeVariable, Machine.cacheVariable,
  "XDG_CACHE_HOME", "RUST_LOG"]

/-- The environment, as far as the tool reads it. -/
def environment : IO (List (String × String)) :=
  variableNames.filterMapM fun name => do
    let value ← IO.getEnv name
    return value.map (name, ·)

/-- The location that an absolute text names. -/
def locationOf (text : String) : Location := Path.collapse (⟨text⟩ : Path).components

/-- Whether a file can be run by the machine: whether it is a script. -/
def isScript (content : Bytes) : Bool := [0x23, 0x21].isPrefixOf content

/-- Read what stands at a location and, down to `depth` levels, below it. Of programs only scripts
are taken when `scriptsOnly` is set; what cannot be read is left out. -/
def gather (scriptsOnly : Bool) : Nat → Location → Files → IO Files
  | depth, at_, fs => do
    try
      let path ← IO.FS.realPath at_.path.text
      match (← path.metadata).type, depth with
      | .dir, depth + 1 =>
        let names := (← path.readDir).map (·.fileName)
        names.foldlM (fun fs name => gather scriptsOnly depth (at_ ++ [name]) fs)
          (fs.plant at_ .directory)
      | .dir, 0 => return fs.plant at_ .directory
      | .file, _ =>
        let start ← (← IO.FS.Handle.mk path .read).read 2
        if scriptsOnly && !isScript start.toList then return fs
        let content := (← IO.FS.readBinFile path).toList
        return fs.plant at_ (.file content (isScript content))
      | _, _ => return fs
    catch _ => return fs

/-- How deep the directories are that are read. -/
def depth : Nat := 16

/-- The files that a run may need: those in the working directory, the kept options and choices,
and the scripts among the programs. -/
def gatherAll (m : Machine) : IO Files := do
  let directories := SearchPath.entries m.searchPath
  let programs := (directories.filter fun dir => (⟨dir⟩ : Path).isAbsolute).map locationOf
  let kept := (Cli.RcFile.place? m).toList ++ m.cacheRoot.toOption.toList
  let kept := kept.map fun p => Path.collapse (p.lexicalComponents (some m.cwd))
  let fs ← programs.foldlM (fun fs dir => gather true 1 dir fs) Files.empty
  let fs ← kept.foldlM (fun fs at_ => gather false depth at_ fs) fs
  let fs ← gather false depth m.cwd fs
  return Shell.Utility.install fs

/-- Write one entry out. -/
def store (at_ : Location) : Entry → IO Unit
  | .directory => IO.FS.createDirAll at_.path.text
  | .link _ | .device _ => pure ()
  | .file content executable => do
    IO.FS.writeBinFile at_.path.text ⟨content.toArray⟩
    if executable then
      let owner : IO.AccessRight := ⟨true, true, true⟩
      let others : IO.AccessRight := ⟨true, false, true⟩
      IO.setAccessRights at_.path.text ⟨owner, others, others⟩

/-- Bring the files of the machine that a run has changed back to where they came from. -/
def bringBack (before after : Files) : IO Unit := do
  let changed := after.entries.filter fun e => before.get? e.1 ≠ some e.2
  let directoriesFirst := changed.mergeSort fun a b => a.1.length ≤ b.1.length
  directoriesFirst.forM fun e => store e.1 e.2
  let gone := before.entries.filter fun e => e.2.isFile && (after.get? e.1).isNone
  gone.forM fun e => IO.FS.removeFile e.1.path.text

/-- The number of process numbers. -/
def processNumbers : Nat := 4194304

/-- The machine that the tool finds itself on. Two runs that follow one another have different
process numbers; the time is that of a file just made. -/
def findMachine : IO Machine := do
  let cwd := locationOf (← IO.currentDir).toString
  let environment ← environment
  let pid := 1 + (← IO.monoNanosNow) % processNumbers
  let (_, made) ← IO.FS.createTempFile
  let time := (← made.metadata).modified.sec.toNat
  IO.FS.removeFile made
  let execute := Shell.execute { cwd, environment, tool := pid }
  return { cwd, environment, pid, time, accountHome := none, execute }

/-- The status under which the tool ends; a signal is told as a shell tells it. -/
def statusOf : Cli.Ending → Nat
  | .exited code => (code % 256).toNat
  | .killed signal _ => (128 + signal).toNat

end CxxScript.CommandLine

open CxxScript CommandLine in
/-- Run the tool with the arguments of the command line. -/
def main (args : List String) : IO UInt32 := do
  let m ← findMachine
  let files ← gatherAll m
  let (c, h) := (Cli.run m args).run { files }
  bringBack files h.files
  (← IO.getStdout).write ⟨h.output.toArray⟩
  (← IO.getStderr).write ⟨(h.errorOutput c.verbosity).toArray⟩
  return UInt32.ofNat (statusOf c.ending)

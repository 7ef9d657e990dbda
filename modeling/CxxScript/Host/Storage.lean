import CxxScript.Host.Machine

/-!
# The files of a host

Opening, writing and removing as steps of a host. Each step says whether it went well, and one that
did not leaves the files of the host as far as it got. What is written to a descriptor of the tool
itself is no change to a file but something that the tool has written.
-/

set_option autoImplicit false

namespace CxxScript

/-- The stream that a descriptor of a process is. -/
def Stream.ofDescriptor? : Nat → Option Stream
  | 1 => some .output
  | 2 => some .error
  | _ => none

namespace Host

/-- Carry out a change to the files, if it can be done. -/
def change {α : Type} (step : Files → Except IoError (α × Files)) :
    StateM Host (Except IoError α) :=
  modifyGet fun h =>
    match step h.files with
    | .ok (result, files) => (.ok result, { h with files })
    | .error cause => (.error cause, h)

/-- Open a file for appending; a missing one is created empty. -/
def openAppend (m : Machine) (p : Path) : StateM Host (Except IoError Location) :=
  change fun fs => fs.openAppend m.cwd p

/-- Open a file for writing from its start: an existing one is emptied, a missing one created. -/
def create (m : Machine) (p : Path) : StateM Host (Except IoError Location) :=
  change fun fs => fs.create m.cwd p

/-- Add bytes to a file that has been opened. -/
def append (at_ : Location) (bytes : Bytes) : StateM Host (Except IoError Unit) := do
  match (← get).files.get? at_ with
  | some (.device (.descriptor n)) =>
    if let some stream := Stream.ofDescriptor? n then emit (.bytes stream bytes)
    return .ok ()
  | _ => change fun fs => (fs.append at_ bytes).map fun fs => ((), fs)

/-- Write a whole file. -/
def write (m : Machine) (p : Path) (bytes : Bytes) : StateM Host (Except IoError Unit) := do
  match ← create m p with
  | .ok at_ => append at_ bytes
  | .error cause => return .error cause

/-- Make a directory together with those above it. -/
def makeDirectories (m : Machine) (p : Path) : StateM Host (Except IoError Unit) :=
  modifyGet fun h =>
    let (result, files) := h.files.makeDirectories m.cwd p
    (result, { h with files })

/-- Remove a file. -/
def remove (m : Machine) (p : Path) : StateM Host (Except IoError Unit) :=
  change fun fs => (fs.remove m.cwd p).map fun fs => ((), fs)

end Host

end CxxScript

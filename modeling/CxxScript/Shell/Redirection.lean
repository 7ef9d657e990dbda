import CxxScript.Shell.State

/-!
# Redirections

A redirection points a descriptor of the shell at a file, makes it follow another descriptor or
closes it, for as long as one command runs.
-/

set_option autoImplicit false

namespace CxxScript.Shell

/-- Why a file could not be opened, in the shell's words. -/
def openFailure (e : IoError) (creating : Bool) : String :=
  let missing := if creating then "Directory nonexistent" else "No such file"
  match e with
  | .system e => if e = .noEntry || e = .notDirectory then missing else e.description
  | e => e.message

namespace State

/-- The descriptor that a path leads to. -/
def descriptorAt? (st : State) (path : String) : Option Nat :=
  match st.files.find st.cwd ⟨path⟩ with
  | .ok (_, .device (.descriptor n)) => some n
  | _ => none

/-- Where what is written to an open file goes. -/
def sinkAt (st : State) (at_ : Location) : Sink :=
  match st.files.get? at_, st.files.refusal? at_ with
  | _, some why => .refusing why
  | some (.device _), none => .nowhere
  | _, none => .file at_

/-- Whether a shell that is careful with files refuses to write to a path: a regular file is there,
or a link that leads nowhere. -/
def keeps (st : State) (path : String) : Bool :=
  st.has Switch.careful && match st.files.find st.cwd ⟨path⟩ with
    | .ok (_, entry) => entry.isFile
    | .error _ =>
      match st.files.locate st.cwd .linkItself ⟨path⟩ with
      | .ok (.present ..) => true
      | _ => false

/-- Whether a path is opened without making a file: a shell that is careful with files uses what
is there. -/
def usesWhatIsThere (st : State) (mode : RedirectMode) (path : String) : Bool :=
  st.has Switch.careful && mode = .truncate false && (st.files.find st.cwd ⟨path⟩).isOk &&
    !st.keeps path

/-- Open a file to write to it, from its start or at its end. -/
def openFor (st : State) (mode : RedirectMode) (path : String) : Except IoError (Sink × State) :=
  match st.descriptorAt? path with
  | some n =>
    match st.sinks.lookup n with
    | some sink => .ok (sink, st)
    | none => .error (.system .noEntry)
  | none =>
    let opened : Except IoError (Location × Files) := match mode with
      | .truncate insisting =>
        if !insisting && st.keeps path then .error (.system .exists_)
        else st.files.create st.cwd ⟨path⟩
      | _ => st.files.openAppend st.cwd ⟨path⟩
    match opened with
    | .ok (at_, files) =>
      let st := { st with files }
      .ok (st.sinkAt at_, st)
    | .error e => .error e

/-- Point a descriptor at what another one is pointed at, or close it. -/
def follow (st : State) (descriptor : Nat) (target : String) : Except String State :=
  match target.toList with
  | ['-'] => .ok (if descriptor = 0 then { st.shut 0 with input := [] } else st.shut descriptor)
  | [digit] =>
    match st.sinks.lookup (digit.toNat - '0'.toNat) with
    | some sink => .ok (if descriptor = 0 then st else st.point descriptor sink)
    | none => .error s!"{target}: Bad file descriptor"
  | _ => .error s!"{target}: Bad file descriptor"

/-- Carry out one redirection, or say why it cannot be done. -/
def redirect (st : State) (r : Redirect String) : Except String State :=
  let target := r.target
  match r.mode with
  | .duplicate => st.follow r.descriptor target
  | .here => .ok { st with input := target.toList }
  | .input =>
    let opened : Except IoError Bytes :=
      if st.files.isDirectory st.cwd ⟨target⟩ then .ok [] else st.files.read st.cwd ⟨target⟩
    match opened with
    | .ok content =>
      let st := st.point r.descriptor (.refusing .badDescriptor)
      if r.descriptor ≠ 0 || st.descriptorAt? target = some 0 then .ok st
      else .ok { st with input := (Text.Utf8.decodeLossy content).toList }
    | .error e => .error s!"cannot open {target}: {openFailure e false}"
  | mode =>
    match st.openFor mode target with
    | .ok (sink, st) => .ok (st.point r.descriptor sink)
    | .error e =>
      let verb := if st.usesWhatIsThere mode target then "open" else "create"
      .error s!"cannot {verb} {target}: {openFailure e true}"

/-- Carry out redirections in order. -/
def redirectAll (st : State) (rs : List (Redirect String)) : Except String State :=
  rs.foldlM redirect st

/-- The shell with the descriptors from before some redirections. -/
def undo (st before : State) (rs : List (Redirect String)) : State :=
  rs.foldl (fun st r =>
    let st := match before.sinks.lookup r.descriptor with
      | some sink => st.point r.descriptor sink
      | none => st.shut r.descriptor
    if r.descriptor = 0 then { st with input := before.input } else st) st

end State

/-- Whether a redirection names a descriptor by something that cannot be one. -/
def Redirect.isUnreadable (r : Redirect String) : Bool :=
  r.mode = .duplicate && match r.target.toList with
    | [c] => !c.isDigit && c != '-'
    | _ => true

end CxxScript.Shell

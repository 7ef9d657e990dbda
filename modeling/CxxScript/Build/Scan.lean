import CxxScript.Build.Unit
import CxxScript.Package.Query
import CxxScript.Source.Copy
import CxxScript.Source.Directive
import CxxScript.Source.Include

/-!
# Scanning a unit

A scan reads the unit's file line by line, follows its directives and its include lines, and ends
with the units the file refers to. A bad directive does not stop the scan: everything that is wrong
is reported before the scan fails. An interrupt does stop it, before the next line, and leaves the
unit as one that still has to be scanned. The copy is written last, and only where one is needed.
-/

set_option autoImplicit false

namespace CxxScript

/-- Why a scan failed. -/
inductive ScanError where
  | processingFailed (path : Path) (count : Nat)
  | unit (cause : UnitError)
  | read (path : Path) (cause : IoError)
  | write (path : Path) (cause : IoError)
  | interrupted (cause : ProcessError)
  deriving DecidableEq, Repr

namespace ScanError

/-- The text of a scan error. -/
def message : ScanError → String
  | .processingFailed path count => s!"{path.text}: {count} directive error(s)"
  | .unit cause => cause.message
  | .read path cause => s!"failed to read {path.text}: {cause.message}"
  | .write path cause => s!"failed to write {path.text}: {cause.message}"
  | .interrupted cause => cause.message

/-- The interrupt that cut the scan short. -/
def interruptSignal? : ScanError → Option Signal
  | .interrupted (.interrupted signal) => some signal
  | _ => none

end ScanError

/-- The pseudo-flag by which a unit names a compiler. -/
def compilerFlag : String := "--hbcxx-cxx="

/-- How far a scan has come: the unit with its flags so far, the units it refers to, and what was
wrong. -/
structure Scan where
  unit : CompilationUnit
  found : List CompilationUnit := []
  diagnostics : List Source.Diagnostic := []
  deriving DecidableEq, Repr

namespace Scan

/-- Add a unit that is referred to, unless it was referred to before. -/
def refer (s : Scan) (u : CompilationUnit) : Scan :=
  if s.found.any (·.same u) then s else { s with found := s.found ++ [u] }

/-- Add a report. -/
def complain (s : Scan) (d : Source.Diagnostic) : Scan :=
  { s with diagnostics := s.diagnostics ++ [d] }

/-- Add flags for the whole build. -/
def pushFlags (s : Scan) (run : List String) : Scan := { s with unit := (s.unit.pushFlags run).2 }

/-- Add flags for the unit alone. -/
def pushPrivateFlags (s : Scan) (run : List String) : Scan :=
  { s with unit := (s.unit.pushPrivateFlags run).2 }

end Scan

namespace Source

/-- A report that blames the source file. -/
def Diagnostic.error (path : Path) (position : Position) (message : String) : Diagnostic :=
  { severity := .error, path, position, message }

/-- The report on a requirement that yields no flags. A requirement that can be met but whose flags
cannot be had is no fault of the source file. -/
def Diagnostic.ofRequirement (path : Path) (position : Position) (requirement : String)
    (e : Package.RequirementError) : Diagnostic :=
  let d : Diagnostic := match e with
    | .missing .. => .error path position "package requirement not met"
    | .queryFailed .. => { severity := .internalError, path, position, message := e.message }
    | _ => .error path position e.message
  let d := d.withNote s!"requires: {requirement}"
  match e.output? with
  | some output => d.withNote output
  | none => d

end Source

namespace Scan

open Source

/-- Follow a directive that stands at `position`. -/
def apply (m : Machine) (cfg : Config) (position : Position) (d : Directive) (s : Scan) :
    StateM Host Scan := do
  let path := s.unit.path
  match d with
  | .flags text => return s.pushFlags (Text.Words.split text)
  | .interpreter => return s
  | .keyValue "cxx" value => return s.pushFlags [compilerFlag ++ value]
  | .keyValue "private" value => return s.pushPrivateFlags (Text.Words.split value)
  | .keyValue "requires" value =>
    match ← Package.flagsFor m cfg.pkgConfig value with
    | .ok flags => return s.pushFlags flags
    | .error e => return s.complain (.ofRequirement path position value e)
  | .keyValue "source" value =>
    match Text.Words.split value with
    | [target] =>
      let source := path.resolveFrom target
      Host.note (.sourcing source)
      return s.refer (.ofPath m (← get) .source source)
    | _ => return s.complain (.error path position s!"source: expected one path, got '{value}'")
  | .keyValue name value =>
    return s.complain (.error path position s!"unknown directive: {name}: {value}")
  | .unknown text => return s.complain (.error path position s!"unknown directive: {text}")

/-- The directive on a line and its place, if the line has one. -/
def directiveOn? (index : Nat) (line : List Char) : Option (Position × Directive) :=
  (findMarker? line).map fun place =>
    (⟨index + 1, place + 1⟩, .parse (line.drop (place + marker.length)))

/-- The first source file beside a header, by the order of the extensions. -/
def sourceBeside? (m : Machine) (h : Host) (header : Path) : Option Path :=
  (CompilationUnit.sourceExtensions.map header.withExtension).find? (h.isFile m)

/-- Follow the include on the line with index `index`. A header beside the file is read too, and a
source file of the same name joins the build. -/
def follow (m : Machine) (cfg : Config) (index : Nat) (i : Include) (s : Scan) :
    StateM Host Scan := do
  let path := s.unit.path
  match i with
  | .beside target =>
    let header := path.resolveFrom target
    let h ← get
    let s := if h.isFile m header then s.refer (.ofPath m h .header header) else s
    match sourceBeside? m h header with
    | some source => return s.refer (.ofPath m h .source source)
    | none => return s
  | .system header =>
    match Package.Implied.ofHeader? header with
    | some (.flags text) => return s.pushFlags (Text.Words.split text)
    | some (.package name) =>
      match ← Package.flagsFor m cfg.pkgConfig name with
      | .ok flags => return s.pushFlags flags
      | .error e =>
        Host.warn (.packageUnavailable path (index + 1) header name e.message)
        return s
    | none => return s

/-- Read the line with index `index`: first its directive, then its include. -/
def readLine (m : Machine) (cfg : Config) (index : Nat) (line : List Char) (s : Scan) :
    StateM Host Scan := do
  let s ← match directiveOn? index line with
    | some (position, d) => s.apply m cfg position d
    | none => pure s
  match Include.ofLine? line with
  | some i => s.follow m cfg index i
  | none => return s

/-- Read lines from the one with index `index` on, looking for an interrupt before each. -/
def readLines (m : Machine) (cfg : Config) : Nat → List Bytes → Scan →
    StateM Host (Option Signal × Scan)
  | _, [], s => return (none, s)
  | index, line :: rest, s => do
    match ← Host.poll m with
    | some signal => return (some signal, s)
    | none => readLines m cfg (index + 1) rest (← s.readLine m cfg index (readableLine line))

/-- Write the copy that a file's content calls for. -/
def writeCopy (m : Machine) (cfg : Config) (content : Bytes) (u : CompilationUnit) :
    StateM Host (Except ScanError Unit × CompilationUnit) := do
  if !needsCopy content then return (.ok (), u)
  match ← u.openCopy m cfg with
  | (.error cause, u) => return (.error (.unit cause), u)
  | (.ok at_, u) =>
    Host.note (.copying u.path u.copy)
    return ((← Host.append at_ (copyOf u.path content)).mapError (.write u.copy), u)

end Scan

namespace CompilationUnit

open Source

/-- Scan the unit's file for what it asks of the build and for the units it refers to. -/
def scan (m : Machine) (cfg : Config) (u : CompilationUnit) :
    StateM Host (Except ScanError (List CompilationUnit) × CompilationUnit) := do
  Host.note (.scanning u.path)
  match (← get).files.read m.cwd u.path with
  | .error cause => return (.error (.read u.path cause), u)
  | .ok content =>
    match ← Scan.readLines m cfg 0 (rawLines content) { unit := u } with
    | (some signal, s) =>
      Host.report s.diagnostics
      return (.error (.interrupted (.interrupted signal)), s.unit)
    | (none, s) =>
      let u := { s.unit with scanned := true }
      Host.report s.diagnostics
      if !s.diagnostics.isEmpty then
        return (.error (.processingFailed u.path s.diagnostics.length), u)
      match ← Scan.writeCopy m cfg content u with
      | (.error e, u) => return (.error e, u)
      | (.ok (), u) => return (.ok s.found, u)

end CompilationUnit

end CxxScript

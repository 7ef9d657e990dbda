import CxxScript.Proofs.Build.Copying
import CxxScript.Proofs.Build.Effects
import CxxScript.Proofs.Build.Pushing

/-!
# What a scan asks and what it is told

What the lines of a file ask of the host goes by the lines alone: the flags of a package, the key of
a file, what stands beside a header. What becomes of the answers goes by the path of the unit. So a
scan is a reading of the file that knows no more of the unit than its path, `Scan.hear`, then
changes to the unit that follow from what the reading was told, `Scan.after`, then the end of the
scan. The two scans of a unit that are told the same make the same changes: `run_scan_of_hear`.
-/

set_option autoImplicit false

namespace CxxScript

open Host

namespace Scan

open Source

/-! ## Changes to a scan -/

/-- One change to a scan. -/
inductive Change where
  | flags (run : List String)
  | privateFlags (run : List String)
  | refer (u : CompilationUnit)
  | complain (d : Diagnostic)
  deriving DecidableEq, Repr

namespace Change

/-- The flags for the whole build that are pushed. -/
def flags? : Change → Option (List String)
  | .flags run => some run
  | _ => none

/-- The flags for the unit alone that are pushed. -/
def privateFlags? : Change → Option (List String)
  | .privateFlags run => some run
  | _ => none

/-- The unit that is referred to. -/
def referred? : Change → Option CompilationUnit
  | .refer u => some u
  | _ => none

/-- The report that is made. -/
def report? : Change → Option Diagnostic
  | .complain d => some d
  | _ => none

/-- Make a change to a scan. -/
def make (s : Scan) : Change → Scan
  | .flags run => s.pushFlags run
  | .privateFlags run => s.pushPrivateFlags run
  | .refer u => s.refer u
  | .complain d => s.complain d

end Change

/-- The scan after some changes. -/
def after (s : Scan) (cs : List Change) : Scan := cs.foldl Change.make s

/-- A unit with the flags that some changes push. -/
def flagged (u : CompilationUnit) (cs : List Change) : CompilationUnit :=
  { u with
    flags := Flags.pushAll u.flags (cs.filterMap Change.flags?)
    privateFlags := Flags.pushAll u.privateFlags (cs.filterMap Change.privateFlags?) }

/-- Units that are referred to with those that some changes refer to. -/
def referring (found : List CompilationUnit) (cs : List Change) : List CompilationUnit :=
  (cs.filterMap Change.referred?).foldl
    (fun found u => if found.any (·.same u) then found else found ++ [u]) found

/-- What is reported of some changes. -/
def reportsOf (cs : List Change) : List Diagnostic := cs.filterMap Change.report?

/-- Some changes and then further ones. -/
theorem after_append (s : Scan) (cs more : List Change) :
    s.after (cs ++ more) = (s.after cs).after more := List.foldl_append ..

/-- The flags, the units that are referred to and the reports each follow from the changes of their
own kind. -/
theorem after_eq (s : Scan) (cs : List Change) : s.after cs =
    { unit := flagged s.unit cs
      found := referring s.found cs
      diagnostics := s.diagnostics ++ reportsOf cs } := by
  induction cs generalizing s with
  | nil =>
    rw [reportsOf, List.filterMap_nil, List.append_nil]
    rfl
  | cons c rest ih =>
    show after (c.make s) rest = _
    rw [ih]
    cases c with
    | flags run => rfl
    | privateFlags run => rfl
    | refer u =>
      show Scan.mk (flagged (s.refer u).unit rest) (referring (s.refer u).found rest)
        ((s.refer u).diagnostics ++ reportsOf rest) = _
      rw [unit_refer, diagnostics_refer, referring, refer, apply_ite found]
      rfl
    | complain d =>
      show Scan.mk _ _ ((s.diagnostics ++ [d]) ++ reportsOf rest) = _
      rw [List.append_assoc]
      rfl

/-- Changes leave the unit its path. -/
theorem path_after (s : Scan) (cs : List Change) : (s.after cs).unit.path = s.unit.path := by
  rw [after_eq]
  rfl

/-! ## What a line asks for -/

/-- Something that a line asks for. -/
inductive Request where
  /-- Flags for the whole build. -/
  | push (run : List String)
  /-- Flags for the unit alone. -/
  | pushPrivate (run : List String)
  /-- The flags of packages that are required. -/
  | requirement (position : Position) (text : String)
  /-- The flags of the package that a header implies. -/
  | package (line : Nat) (header name : String)
  /-- A source file. -/
  | source (target : String)
  /-- A header beside the file, and the source file beside that. -/
  | header (target : String)
  /-- What cannot be asked for. -/
  | refusal (position : Position) (message : String)
  deriving DecidableEq, Repr

/-- What the host says to a request. -/
inductive Answer where
  | nothing
  /-- The flags of packages, or why there are none. -/
  | flags (r : Except Package.RequirementError (List String))
  /-- The key of a file. -/
  | key (k : Path)
  /-- The key of a header, and the source file beside it with its key, if they are there. -/
  | files (header? : Option Path) (source? : Option (Path × Path))
  deriving DecidableEq

/-- What is asked for by a directive that is to name one source file. -/
def Request.ofSource (position : Position) (value : String) : Request :=
  match Text.Words.split value with
  | [target] => .source target
  | _ => .refusal position s!"source: expected one path, got '{value}'"

end Scan

/-- What a directive asks for, if anything. -/
def Source.Directive.request? (position : Source.Position) :
    Source.Directive → Option Scan.Request
  | .flags text => some (.push (Text.Words.split text))
  | .interpreter => none
  | .keyValue "cxx" value => some (.push [compilerFlag ++ value])
  | .keyValue "private" value => some (.pushPrivate (Text.Words.split value))
  | .keyValue "requires" value => some (.requirement position value)
  | .keyValue "source" value => some (.ofSource position value)
  | .keyValue name value => some (.refusal position s!"unknown directive: {name}: {value}")
  | .unknown text => some (.refusal position s!"unknown directive: {text}")

/-- What the include on the line with an index asks for, if anything. -/
def Source.Include.request? (index : Nat) : Source.Include → Option Scan.Request
  | .beside target => some (.header target)
  | .system header =>
    match Package.Implied.ofHeader? header with
    | some (.flags text) => some (.push (Text.Words.split text))
    | some (.package name) => some (.package (index + 1) header name)
    | none => none

/-- The unit for a file that has a key. -/
def CompilationUnit.ofKey (m : Machine) (kind : UnitKind) (p key : Path) : CompilationUnit where
  path := p.normalize
  identity := key
  kind
  copy := copyPath m.pid p.normalize

namespace Scan

open Source

/-- Put a request to the host, for the unit with a path. -/
def Request.ask (m : Machine) (cfg : Config) (path : Path) : Request → StateM Host Answer
  | .push _ | .pushPrivate _ | .refusal .. => return .nothing
  | .requirement _ text => return .flags (← Package.flagsFor m cfg.pkgConfig text)
  | .package line included name => do
    match ← Package.flagsFor m cfg.pkgConfig name with
    | .ok flags => return .flags (.ok flags)
    | .error e =>
      Host.warn (.packageUnavailable path line included name e.message)
      return .flags (.error e)
  | .source target => do
    let source := path.resolveFrom target
    Host.note (.sourcing source)
    return .key ((← get).identity m source.normalize)
  | .header target => do
    let header := path.resolveFrom target
    let h ← get
    return .files (if h.isFile m header then some (h.identity m header.normalize) else none)
      ((sourceBeside? m h header).map fun source => (source, h.identity m source.normalize))

/-- The changes that a request makes with the answer to it, for the unit with a path. -/
def Request.changes (m : Machine) (path : Path) : Request → Answer → List Change
  | .push run, _ => [.flags run]
  | .pushPrivate run, _ => [.privateFlags run]
  | .refusal position message, _ => [.complain (.error path position message)]
  | .requirement _ _, .flags (.ok flags) => [.flags flags]
  | .requirement position text, .flags (.error e) =>
    [.complain (.ofRequirement path position text e)]
  | .package .., .flags (.ok flags) => [.flags flags]
  | .source target, .key k => [.refer (.ofKey m .source (path.resolveFrom target) k)]
  | .header target, .files header? source? =>
    (header?.map fun k => .refer (.ofKey m .header (path.resolveFrom target) k)).toList ++
      (source?.map fun source => .refer (.ofKey m .source source.1 source.2)).toList
  | _, _ => []

/-- Put requests to the host, one after the other. -/
def askAll (m : Machine) (cfg : Config) (path : Path) : List Request → StateM Host (List Answer)
  | [] => return []
  | r :: rest => do
    let a ← r.ask m cfg path
    return a :: (← askAll m cfg path rest)

/-- The changes that requests make with the answers to them. -/
def changesOf (m : Machine) (path : Path) (rs : List Request) (as : List Answer) : List Change :=
  (List.zipWith (Request.changes m path) rs as).flatten

/-- What the line with an index asks for: first its directive, then its include. -/
def requestsOn (index : Nat) (line : List Char) : List Request :=
  ((directiveOn? index line).bind fun found => found.2.request? found.1).toList ++
    ((Include.ofLine? line).bind (·.request? index)).toList

variable {m : Machine} {cfg : Config} {path : Path} {h h' : Host}

/-- A request is put to the host, and then those behind it. -/
theorem run_askAll_cons {r : Request} {rest : List Request} {a : Answer} {as : List Answer}
    {h₁ : Host} (hask : (r.ask m cfg path).run h = (a, h₁))
    (hrest : (askAll m cfg path rest).run h₁ = (as, h')) :
    (askAll m cfg path (r :: rest)).run h = (a :: as, h') := by
  rw [askAll, run_bind_of_run hask, run_bind_of_run hrest]
  rfl

/-- Requests are answered in order, the first ones before the others are asked. -/
theorem run_askAll_append {rs more : List Request} {as : List Answer}
    (hall : (askAll m cfg path (rs ++ more)).run h = (as, h')) :
    ∃ first behind h₁, as = first ++ behind ∧ first.length = rs.length ∧
      (askAll m cfg path rs).run h = (first, h₁) ∧
      (askAll m cfg path more).run h₁ = (behind, h') := by
  induction rs generalizing h as with
  | nil => exact ⟨[], as, h, rfl, rfl, rfl, hall⟩
  | cons r rest ih =>
    obtain ⟨a, h₁, hask⟩ := exists_run (r.ask m cfg path) h
    obtain ⟨as₁, h₂, hrest⟩ := exists_run (askAll m cfg path (rest ++ more)) h₁
    rw [List.cons_append, run_askAll_cons hask hrest] at hall
    cases hall
    obtain ⟨first, behind, h₃, rfl, hlength, hfirst, hbehind⟩ := ih hrest
    exact ⟨a :: first, behind, h₃, rfl, congrArg (· + 1) hlength, run_askAll_cons hask hfirst,
      hbehind⟩

/-- Requests change a scan one behind the other. -/
theorem changesOf_append {rs : List Request} {as : List Answer} (hlength : as.length = rs.length)
    (m : Machine) (path : Path) (more : List Request) (behind : List Answer) :
    changesOf m path (rs ++ more) (as ++ behind) =
      changesOf m path rs as ++ changesOf m path more behind := by
  rw [changesOf, List.zipWith_append hlength.symm, List.flatten_append]
  rfl

/-- One request makes the changes of its answer. -/
theorem changesOf_single (m : Machine) (path : Path) (r : Request) (a : Answer) :
    changesOf m path [r] [a] = r.changes m path a := List.append_nil _

/-- One request that has been put to the host has one answer. -/
theorem run_askAll_single {r : Request} {as : List Answer}
    (hall : (askAll m cfg path [r]).run h = (as, h')) :
    ∃ a, as = [a] ∧ (r.ask m cfg path).run h = (a, h') := by
  obtain ⟨a, h₁, hask⟩ := exists_run (r.ask m cfg path) h
  rw [run_askAll_cons hask (rfl : (askAll m cfg path []).run h₁ = ([], h₁))] at hall
  cases hall
  exact ⟨a, rfl, hask⟩

/-- To follow a directive is to put what it asks for to the host. -/
theorem run_apply {position : Position} {d : Directive} {s : Scan} {as : List Answer}
    (hall : (askAll m cfg s.unit.path (d.request? position).toList).run h = (as, h')) :
    (s.apply m cfg position d).run h =
      (s.after (changesOf m s.unit.path (d.request? position).toList as), h') := by
  unfold apply
  split
  · cases hall
    rfl
  · cases hall
    rfl
  · cases hall
    rfl
  · cases hall
    rfl
  · next value =>
    obtain ⟨a, rfl, hask⟩ := run_askAll_single hall
    obtain ⟨r, h₁, hr⟩ := exists_run (Package.flagsFor m cfg.pkgConfig value) h
    rw [Request.ask, run_bind_of_run hr] at hask
    cases hask
    rw [run_bind_of_run hr]
    cases r <;> rfl
  · next value =>
    obtain ⟨a, rfl, hask⟩ := run_askAll_single (r := .ofSource position value) hall
    show _ = (s.after (changesOf m s.unit.path [.ofSource position value] [a]), _)
    rw [changesOf_single]
    unfold Request.ofSource at hask ⊢
    generalize Text.Words.split value = words at hask ⊢
    -- The value is one word, or it is none or several.
    rcases words with _ | ⟨target, _ | ⟨other, rest⟩⟩ <;> (cases hask; rfl)
  · next name value hcxx hprivate hrequires hsource =>
    have hrequest : (Directive.keyValue name value).request? position =
        some (.refusal position s!"unknown directive: {name}: {value}") := by
      rw [Directive.request?] <;> assumption
    rw [hrequest] at hall ⊢
    cases hall
    rfl
  · cases hall
    rfl

/-- To follow an include is to put what it asks for to the host. -/
theorem run_follow {index : Nat} {i : Include} {s : Scan} {as : List Answer}
    (hall : (askAll m cfg s.unit.path (i.request? index).toList).run h = (as, h')) :
    (s.follow m cfg index i).run h =
      (s.after (changesOf m s.unit.path (i.request? index).toList as), h') := by
  unfold follow
  cases i with
  | beside target =>
    obtain ⟨a, rfl, hask⟩ := run_askAll_single (r := .header target) hall
    show _ = (s.after (changesOf m s.unit.path [.header target] [a]), _)
    cases hask
    rw [changesOf_single, run_bind_of_run (rfl : (get : StateM Host Host).run h = (h, h)),
      Request.changes]
    generalize sourceBeside? m h (s.unit.path.resolveFrom target) = source?
    cases h.isFile m (s.unit.path.resolveFrom target) <;> cases source? <;> rfl
  | system header =>
    dsimp only
    unfold Include.request? at hall ⊢
    dsimp only at hall ⊢
    generalize Package.Implied.ofHeader? header = implied at hall ⊢
    rcases implied with _ | text | name
    · cases hall
      rfl
    · cases hall
      rfl
    · obtain ⟨a, rfl, hask⟩ := run_askAll_single (r := .package (index + 1) header name) hall
      obtain ⟨r, h₁, hr⟩ := exists_run (Package.flagsFor m cfg.pkgConfig name) h
      rw [Request.ask, run_bind_of_run hr] at hask
      rw [Option.toList_some, changesOf_single, run_bind_of_run hr]
      cases r <;> (cases hask; rfl)

/-- To read a line is to put what it asks for to the host. -/
theorem run_readLine {index : Nat} {line : List Char} {s : Scan} {as : List Answer}
    (hall : (askAll m cfg s.unit.path (requestsOn index line)).run h = (as, h')) :
    (s.readLine m cfg index line).run h =
      (s.after (changesOf m s.unit.path (requestsOn index line) as), h') := by
  obtain ⟨first, behind, h₁, rfl, hlength, hfirst, hbehind⟩ := run_askAll_append hall
  rw [requestsOn, changesOf_append hlength, after_append, readLine_eq]
  have hdirect : (s.direct m cfg index line).run h =
      (s.after (changesOf m s.unit.path
        ((directiveOn? index line).bind fun found => found.2.request? found.1).toList first),
        h₁) := by
    unfold direct
    cases hd : directiveOn? index line with
    | none =>
      rw [hd] at hfirst
      cases hfirst
      rfl
    | some found =>
      rw [hd] at hfirst
      exact run_apply hfirst
  rw [run_bind_of_run hdirect]
  have hpath := path_after s (changesOf m s.unit.path
    ((directiveOn? index line).bind fun found => found.2.request? found.1).toList first)
  generalize s.after _ = s₁ at hpath ⊢
  rw [← hpath] at hbehind ⊢
  cases hi : Include.ofLine? line with
  | none =>
    rw [hi] at hbehind
    cases hbehind
    rfl
  | some i =>
    rw [hi] at hbehind
    exact run_follow hbehind

/-! ## A whole file -/

/-- Put what lines ask for to the host, from the one with index `index` on, looking for an interrupt
before each, and give the answers line by line. -/
def hearLines (m : Machine) (cfg : Config) (path : Path) :
    Nat → List Bytes → StateM Host (Option Signal × List (List Answer))
  | _, [] => return (none, [])
  | index, line :: rest => do
    match ← Host.poll m with
    | some signal => return (some signal, [])
    | none =>
      let as ← askAll m cfg path (requestsOn index (readableLine line))
      let (signal?, more) ← hearLines m cfg path (index + 1) rest
      return (signal?, as :: more)

/-- The changes that lines make with the answers to what they ask for, line by line. -/
def changesFrom (m : Machine) (path : Path) : Nat → List Bytes → List (List Answer) →
    List (List Change)
  | index, line :: rest, as :: more =>
    changesOf m path (requestsOn index (readableLine line)) as ::
      changesFrom m path (index + 1) rest more
  | _, _, _ => []

/-- How the hearing about some lines goes on from its first line: an interrupt is seen before it, or
its requests are answered and the rest is heard about. -/
theorem hearLines_cons {index : Nat} {line : Bytes} {rest : List Bytes} {signal? : Option Signal}
    {answers : List (List Answer)}
    (hall : (hearLines m cfg path index (line :: rest)).run h = ((signal?, answers), h')) :
    (∃ signal, (Host.poll m).run h = (some signal, h') ∧ signal? = some signal ∧ answers = []) ∨
      ∃ h₁ as h₂ more, (Host.poll m).run h = (none, h₁) ∧
        (askAll m cfg path (requestsOn index (readableLine line))).run h₁ = (as, h₂) ∧
        (hearLines m cfg path (index + 1) rest).run h₂ = ((signal?, more), h') ∧
        answers = as :: more := by
  obtain ⟨seen?, h₁, hpoll⟩ := exists_run (Host.poll m) h
  rw [hearLines, run_bind_of_run hpoll] at hall
  cases seen? with
  | some signal =>
    cases hall
    exact .inl ⟨signal, hpoll, rfl, rfl⟩
  | none =>
    obtain ⟨as, h₂, hasked⟩ :=
      exists_run (askAll m cfg path (requestsOn index (readableLine line))) h₁
    obtain ⟨⟨later?, more⟩, h₃, hmore⟩ := exists_run (hearLines m cfg path (index + 1) rest) h₂
    dsimp only at hall
    rw [run_bind_of_run hasked, run_bind_of_run hmore] at hall
    cases hall
    exact .inr ⟨h₁, as, h₂, more, hpoll, hasked, hmore, rfl⟩

/-- To read lines is to put what they ask for to the host. -/
theorem run_readLines {index : Nat} {lines : List Bytes} {s : Scan} {signal? : Option Signal}
    {answers : List (List Answer)}
    (hall : (hearLines m cfg s.unit.path index lines).run h = ((signal?, answers), h')) :
    (readLines m cfg index lines s).run h =
      ((signal?, s.after (changesFrom m s.unit.path index lines answers).flatten), h') := by
  induction lines generalizing index s h answers with
  | nil =>
    cases hall
    rfl
  | cons line rest ih =>
    rcases hearLines_cons hall with
      ⟨signal, hpoll, rfl, rfl⟩ | ⟨h₁, as, h₂, more, hpoll, hasked, hmore, rfl⟩
    · exact run_readLines_interrupted hpoll
    · rw [run_readLines_cons hpoll (run_readLine hasked), changesFrom, List.flatten_cons,
        after_append]
      -- The path is all that the next lines know of the unit, and no change touches it.
      have hpath := path_after s (changesOf m s.unit.path (requestsOn index (readableLine line)) as)
      rw [← hpath] at hmore
      rw [ih hmore, hpath]

/-- What the reading of a file is told: the content, the interrupt that has cut it short, and the
answers to what the lines have asked for. -/
structure Hearing where
  content : Bytes
  signal? : Option Signal
  answers : List (List Answer)
  deriving DecidableEq

/-- The changes that a file makes, line by line, with what its reading was told. -/
def Hearing.changes (m : Machine) (path : Path) (t : Hearing) : List (List Change) :=
  changesFrom m path 0 (rawLines t.content) t.answers

/-- Read the file of the unit with a path, and put what its lines ask for to the host. -/
def hear (m : Machine) (cfg : Config) (path : Path) : StateM Host (Except IoError Hearing) := do
  Host.note (.scanning path)
  match (← get).files.read m.cwd path with
  | .error cause => return .error cause
  | .ok content =>
    let (signal?, answers) ← hearLines m cfg path 0 (rawLines content)
    return .ok { content, signal?, answers }

end Scan

/-! ## A scan -/

/-- The report that an event is, if it is one. -/
def Event.report? : Event → Option Source.Diagnostic
  | .diagnostic d => some d
  | _ => none

/-- The reports that have been made, in order. -/
def Host.reports (h : Host) : List Source.Diagnostic := h.events.filterMap Event.report?

/-- Other events leave the reports as they are. -/
theorem Host.reports_of_wrote {h h' : Host} (hw : Wrote (fun e => e.report? = none) h h') :
    h'.reports = h.reports := by
  obtain ⟨es, he, hP⟩ := hw
  have hnone : es.filterMap Event.report? = [] := List.filterMap_eq_nil_iff.mpr hP
  rw [reports, reports, he, List.filterMap_append, hnone, List.append_nil]

/-- Reports that are made stand behind the earlier ones. -/
theorem Host.reports_reported (h : Host) (ds : List Source.Diagnostic) :
    (h.reported ds).reports = h.reports ++ ds := by
  have hall : (ds.map Event.diagnostic).filterMap Event.report? = ds := by
    rw [List.filterMap_map]
    exact List.filterMap_some
  rw [reports, reports, reported, List.filterMap_append, hall]

/-- No query is a report. -/
theorem Package.IsQuery.not_report {command : String} {e : Event}
    (h : Package.IsQuery command e) : e.report? = none := by
  rcases h with ⟨c, -, rfl⟩ | ⟨content, rfl⟩ <;> rfl

namespace Scan

open Source

variable {m : Machine} {cfg : Config} {h h' : Host}

/-- To ask for what a request needs reports nothing. -/
theorem Request.wrote_ask (path : Path) (r : Request) (h : Host) :
    Leads (r.ask m cfg path) h fun _ h' => Wrote (fun e => e.report? = none) h h' := by
  have hquery : ∀ text, Leads (Package.flagsFor m cfg.pkgConfig text) h fun _ h' =>
      Wrote (fun e => e.report? = none) h h' := fun text =>
    (Package.wrote_flagsFor m _ text h).mono fun _ _ hw =>
      hw.mono fun _ => Package.IsQuery.not_report
  cases r with
  | push run => exact .of_eq rfl
  | pushPrivate run => exact .of_eq rfl
  | refusal position message => exact .of_eq rfl
  | requirement position text => exact Leads.bind (hquery text) fun _ _ hw => hw
  | package line included name =>
    refine Leads.bind (hquery name) fun r h₁ hw => ?_
    cases r with
    | ok flags => exact hw
    | error e => exact hw.trans (.single rfl rfl)
  | source target => exact .single rfl rfl
  | header target => exact .of_eq rfl

/-- To ask for what requests need reports nothing. -/
theorem wrote_askAll (path : Path) (rs : List Request) (h : Host) :
    Leads (askAll m cfg path rs) h fun _ h' => Wrote (fun e => e.report? = none) h h' := by
  induction rs generalizing h with
  | nil => exact .of_eq rfl
  | cons r rest ih =>
    refine Leads.bind (r.wrote_ask path h) fun a h₁ hw => ?_
    exact Leads.bind (ih h₁) fun as h₂ hw' => hw.trans hw'

/-- To hear what lines ask for reports nothing. -/
theorem wrote_hearLines (path : Path) (index : Nat) (lines : List Bytes) (h : Host) :
    Leads (hearLines m cfg path index lines) h fun _ h' =>
      Wrote (fun e => e.report? = none) h h' := by
  induction lines generalizing index h with
  | nil => exact .of_eq rfl
  | cons line rest ih =>
    have hpoll : Leads (Host.poll m) h fun _ h' => Wrote (fun e => e.report? = none) h h' :=
      .of_eq rfl
    refine Leads.bind hpoll fun signal? h₁ hw => ?_
    cases signal? with
    | some signal => exact hw
    | none =>
      refine Leads.bind (wrote_askAll path _ h₁) fun as h₂ hw' => ?_
      exact Leads.bind (ih (index + 1) h₂) fun _ h₃ hw'' => (hw.trans hw').trans hw''

/-- To hear what a file asks for reports nothing. -/
theorem wrote_hear (path : Path) (h : Host) :
    Leads (hear m cfg path) h fun _ h' => Wrote (fun e => e.report? = none) h h' := by
  have hbegun : Wrote (fun e => e.report? = none) h (h.noted (.scanning path)) := .single rfl rfl
  unfold hear
  rw [leads_bind, leads_note, leads_bind, leads_get]
  split
  · exact hbegun
  · exact Leads.bind (wrote_hearLines path 0 _ _) fun _ h₁ hw => hbegun.trans hw

/-- The reports are as before when it has been heard what a file asks for. -/
theorem reports_hear (path : Path) (h : Host) :
    Leads (hear m cfg path) h fun _ h' => h'.reports = h.reports :=
  (wrote_hear path h).mono fun _ _ => Host.reports_of_wrote

/-- To add bytes to a file reports nothing. -/
theorem wrote_append (at_ : Location) (bytes : Bytes) (h : Host) :
    Leads (Host.append at_ bytes) h fun _ h' => Wrote (fun e => e.report? = none) h h' := by
  unfold Host.append
  rw [leads_bind, leads_get]
  split
  · split
    · exact Wrote.single rfl rfl
    · exact .of_eq rfl
  · exact .of_eq (events_change _ h)

/-- To write a copy reports nothing. -/
theorem wrote_writeCopy (content : Bytes) (u : CompilationUnit) (h : Host) :
    Leads (writeCopy m cfg content u) h fun _ h' => Wrote (fun e => e.report? = none) h h' := by
  unfold writeCopy
  split
  · exact .of_eq rfl
  refine Leads.bind (CompilationUnit.wrote_openCopy m cfg u h) fun r h₁ hopened => ?_
  have hw : Wrote (fun e => e.report? = none) h h₁ := by
    refine hopened.mono fun e he => ?_
    obtain ⟨p, place, rfl⟩ := he
    rfl
  obtain ⟨r, u'⟩ := r
  cases r with
  | error cause => exact hw
  | ok at_ =>
    rw [leads_bind, leads_note]
    refine Leads.bind (wrote_append at_ _ _) fun _ h₂ happended => ?_
    exact (hw.trans (.single rfl rfl)).trans happended

end Scan

namespace CompilationUnit

open Source Scan

variable {m : Machine} {cfg : Config} {u : CompilationUnit} {h h' : Host}

/-- Of a file that cannot be read nothing is heard. -/
theorem run_hear_of_unreadable {path : Path} {cause : IoError}
    (hread : h.files.read m.cwd path = .error cause) :
    (hear m cfg path).run h = (.error cause, h.noted (.scanning path)) := by
  have hnoted : (h.noted (.scanning path)).files.read m.cwd path = .error cause := hread
  have hnote : (note (.scanning path)).run h = ((), h.noted (.scanning path)) := rfl
  have hget : (get : StateM Host Host).run (h.noted (.scanning path)) =
      (h.noted (.scanning path), h.noted (.scanning path)) := rfl
  rw [hear, run_bind_of_run hnote, run_bind_of_run hget, hnoted]
  rfl

/-- Of a file that can be read its lines are heard. -/
theorem run_hear_of_readable {path : Path} {content : Bytes} {signal? : Option Signal}
    {answers : List (List Answer)} (hread : h.files.read m.cwd path = .ok content)
    (hlines : (hearLines m cfg path 0 (rawLines content)).run (h.noted (.scanning path)) =
      ((signal?, answers), h')) :
    (hear m cfg path).run h = (.ok { content, signal?, answers }, h') := by
  have hnoted : (h.noted (.scanning path)).files.read m.cwd path = .ok content := hread
  have hnote : (note (.scanning path)).run h = ((), h.noted (.scanning path)) := rfl
  have hget : (get : StateM Host Host).run (h.noted (.scanning path)) =
      (h.noted (.scanning path), h.noted (.scanning path)) := rfl
  rw [hear, run_bind_of_run hnote, run_bind_of_run hget, hnoted]
  dsimp only
  rw [run_bind_of_run hlines]
  rfl

/-- What has been read of a unit's file, from what its reading was told. -/
def told (m : Machine) (u : CompilationUnit) (t : Hearing) : Scan :=
  ({ unit := u } : Scan).after (t.changes m u.path).flatten

/-- What a reading was told makes of a unit, of the units it refers to and of its reports. -/
theorem told_eq (m : Machine) (u : CompilationUnit) (t : Hearing) : u.told m t =
    { unit := flagged u (t.changes m u.path).flatten
      found := referring [] (t.changes m u.path).flatten
      diagnostics := reportsOf (t.changes m u.path).flatten } := by
  rw [told, after_eq]
  rfl

/-- What a unit is told leaves it its path. -/
theorem path_told (m : Machine) (u : CompilationUnit) (t : Hearing) :
    (u.told m t).unit.path = u.path := path_after _ _

/-- The reading of a unit's file goes by what it was told. -/
theorem reads_of_hear {t : Hearing} (hheard : (hear m cfg u.path).run h = (.ok t, h')) :
    u.Reads m cfg h t.content t.signal? (u.told m t) h' := by
  cases hread : h.files.read m.cwd u.path with
  | error cause =>
    rw [run_hear_of_unreadable hread] at hheard
    cases hheard
  | ok content =>
    obtain ⟨⟨signal?, answers⟩, h₁, hlines⟩ :=
      exists_run (hearLines m cfg u.path 0 (rawLines content)) (h.noted (.scanning u.path))
    rw [run_hear_of_readable hread hlines] at hheard
    cases hheard
    exact ⟨hread, run_readLines (s := { unit := u }) hlines⟩

/-- How a scan goes on when its file has been read or could not be. -/
def conclude (m : Machine) (cfg : Config) (u : CompilationUnit) :
    Except IoError Hearing → StateM Host (Except ScanError (List CompilationUnit) × CompilationUnit)
  | .error cause => return (.error (.read u.path cause), u)
  | .ok t => finish m cfg t.content (t.signal?, u.told m t)

/-- A scan reads the file, of which it knows the path alone, and goes on by what that was told. -/
theorem run_scan_of_hear {t : Except IoError Hearing}
    (hheard : (hear m cfg u.path).run h = (t, h')) :
    (u.scan m cfg).run h = (u.conclude m cfg t).run h' := by
  cases t with
  | ok t => exact run_scan_of_reads (reads_of_hear hheard)
  | error cause =>
    cases hread : h.files.read m.cwd u.path with
    | ok content =>
      obtain ⟨⟨signal?, answers⟩, h₁, hlines⟩ :=
        exists_run (hearLines m cfg u.path 0 (rawLines content)) (h.noted (.scanning u.path))
      rw [run_hear_of_readable hread hlines] at hheard
      cases hheard
    | error cause' =>
      rw [run_hear_of_unreadable hread] at hheard
      cases hheard
      exact Discovery.scan_of_unreadable hread

/-- How a scan ends, with what the reading of its file was told and from where that ended. -/
inductive Concludes (m : Machine) (cfg : Config) (u : CompilationUnit) (t : Hearing) (k : Host) :
    Except ScanError (List CompilationUnit) → CompilationUnit → Host → Prop where
  | interrupted {signal : Signal} (hsignal : t.signal? = some signal) :
    Concludes m cfg u t k (.error (.interrupted (.interrupted signal))) (u.told m t).unit
      (k.reported (u.told m t).diagnostics)
  | reported (hquiet : t.signal? = none) (hne : (u.told m t).diagnostics ≠ []) :
    Concludes m cfg u t k (.error (.processingFailed u.path (u.told m t).diagnostics.length))
      { (u.told m t).unit with scanned := true } (k.reported (u.told m t).diagnostics)
  | written {r : Except ScanError Unit} {u₁ : CompilationUnit} {k₁ : Host}
      (hquiet : t.signal? = none) (hnil : (u.told m t).diagnostics = [])
      (hw : (Scan.writeCopy m cfg t.content { (u.told m t).unit with scanned := true }).run k =
        ((r, u₁), k₁)) :
    Concludes m cfg u t k (r.map fun _ => (u.told m t).found) u₁ k₁

/-- A scan of a file that has been heard of ends in one of these ways. -/
theorem concludes_of_hear {t : Hearing} {k : Host}
    (hheard : (hear m cfg u.path).run h = (.ok t, k)) :
    Leads (u.scan m cfg) h fun r h' => u.Concludes m cfg t k r.1 r.2 h' := by
  have hr := reads_of_hear hheard
  cases hsignal : t.signal? with
  | some signal =>
    rw [hsignal] at hr
    rw [leads_of_run (run_scan_interrupted hr)]
    exact .interrupted hsignal
  | none =>
    rw [hsignal] at hr
    by_cases hnil : (u.told m t).diagnostics = []
    case neg =>
      rw [leads_of_run (run_scan_reported hr hnil)]
      exact .reported hsignal hnil
    case pos =>
      obtain ⟨⟨r, u₁⟩, k₁, hw⟩ := exists_run
        (Scan.writeCopy m cfg t.content { (u.told m t).unit with scanned := true }) k
      rw [leads_of_run (run_scan_clean hr hnil hw)]
      exact .written hsignal hnil hw

/-- A scan reports what follows from what its reading was told, however it ends. -/
theorem reports_of_hear {t : Hearing} {k : Host}
    (hheard : (hear m cfg u.path).run h = (.ok t, k)) :
    Leads (u.scan m cfg) h fun _ h' => h'.reports = h.reports ++ (u.told m t).diagnostics := by
  refine (concludes_of_hear hheard).mono fun r h' hends => ?_
  rw [← (leads_of_run hheard _).mp (reports_hear u.path h)]
  obtain ⟨r, u'⟩ := r
  cases hends with
  | interrupted => exact Host.reports_reported k _
  | reported => exact Host.reports_reported k _
  | written _ hnil hw =>
    rw [hnil, List.append_nil]
    exact Host.reports_of_wrote ((leads_of_run hw _).mp (wrote_writeCopy _ _ k))

end CompilationUnit

end CxxScript

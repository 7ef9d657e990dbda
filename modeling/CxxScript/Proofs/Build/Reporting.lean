import CxxScript.Proofs.Build.Requests
import CxxScript.Proofs.Source.Marking

/-!
# What is reported of a file

Each line is reported on its own, when what it asks for has been answered: once if it offends, and
not at all otherwise. So the reports of a file stand in the order of its lines, one for each line
that offends, at the place where its directive stands in the file: `scan_reports`. A file with
reports has nothing written to disk for it, and all the flags that its lines ask for are pushed
nevertheless.
-/

set_option autoImplicit false

namespace CxxScript

open Host

namespace Source

open Text

/-- A text behind a marker says what to do: flags, an interpreter's path, or a known key with a
value. -/
def IsKnown (text : List Char) : Prop :=
  text.head? = some '-' ∨ text.head? = some '/' ∨
    ∃ key value, Directive.keyValue? text = some (key, value) ∧
      String.ofList key ∈ Directive.keys

/-- What stands behind a marker is at fault, the requests of the line being answered with `as`: it
says nothing that is known, or is to name one source and does not, or requires packages whose flags
cannot be had. -/
def IsFaulty (as : List Scan.Answer) (text : List Char) : Prop :=
  ¬ IsKnown text ∨ ∃ key value, Directive.keyValue? text = some (key, value) ∧
    ((String.ofList key = "source" ∧
        (Words.split (String.ofList (trimEnd value))).length ≠ 1) ∨
      (String.ofList key = "requires" ∧ ∃ e, as.head? = some (.flags (.error e))))

/-- A line offends, its requests being answered with `as`: it has a marker, and what stands behind
the first one is at fault. -/
def Offends (line : List Char) (as : List Scan.Answer) : Prop :=
  ∃ text, behindMarker? line = some text ∧ IsFaulty as text

/-- A directive is refused, the requests of its line being answered with `as`. -/
def Directive.Refused (as : List Scan.Answer) : Directive → Prop
  | .flags _ | .interpreter => False
  | .unknown _ => True
  | .keyValue name value => name ∉ keys ∨
      (name = "source" ∧ (Words.split value).length ≠ 1) ∨
      (name = "requires" ∧ ∃ e, as.head? = some (.flags (.error e)))

/-- What stands behind a marker is at fault when the directive that is parsed of it is refused. -/
theorem isFaulty_iff (as : List Scan.Answer) (rest : List Char) :
    IsFaulty as (rest.dropWhile isGap) ↔ (Directive.parse rest).Refused as := by
  cases hkv : Directive.keyValue? (rest.dropWhile isGap) with
  | some found =>
    obtain ⟨key, value⟩ := found
    have hheads := Directive.head_of_keyValue? hkv
    have hknown : IsKnown (rest.dropWhile isGap) ↔ String.ofList key ∈ Directive.keys := by
      simp [IsKnown, hkv, hheads]
    rw [Directive.parse_keyValue hkv, IsFaulty, hknown, hkv]
    simp [Directive.Refused]
  | none =>
    have hfaulty : IsFaulty as (rest.dropWhile isGap) ↔
        (rest.dropWhile isGap).head? ≠ some '-' ∧ (rest.dropWhile isGap).head? ≠ some '/' := by
      simp [IsFaulty, IsKnown, hkv]
    rw [hfaulty]
    rcases Directive.parse_other hkv with ⟨hdash, text, hparse⟩ | ⟨hslash, hparse⟩ |
      ⟨hdash, hslash, text, hparse⟩ <;> rw [hparse]
    · exact iff_of_false (fun hnot => hnot.1 hdash) id
    · exact iff_of_false (fun hnot => hnot.2 hslash) id
    · exact iff_of_true ⟨hdash, hslash⟩ trivial

/-- A line offends just when it has a directive that is refused. -/
theorem offends_iff (index : Nat) {line : List Char} {as : List Scan.Answer} :
    Offends line as ↔ ∃ position d, Scan.directiveOn? index line = some (position, d) ∧
      d.Refused as := by
  rw [Offends, behindMarker?, Scan.directiveOn?]
  cases findMarker? line with
  | none => simp
  | some place => simp [isFaulty_iff]

end Source

namespace Scan

open Source

variable {m : Machine} {cfg : Config} {path : Path} {h h' : Host}

/-! ## One line -/

/-- A note leaves a report in its place. -/
theorem withNote_place (d : Diagnostic) (note : String) :
    (d.withNote note).path = d.path ∧ (d.withNote note).position = d.position := by
  unfold Diagnostic.withNote
  split <;> exact ⟨rfl, rfl⟩

/-- The report on a requirement blames the place of the directive. -/
theorem ofRequirement_place (path : Path) (position : Position) (requirement : String)
    (e : Package.RequirementError) :
    (Diagnostic.ofRequirement path position requirement e).path = path ∧
      (Diagnostic.ofRequirement path position requirement e).position = position := by
  unfold Diagnostic.ofRequirement
  cases e.output? <;> cases e <;> simp [withNote_place, Diagnostic.error]

/-- The directive of a line is reported, once and at its place, just when it is refused. -/
theorem reportsOf_directive {position : Position} {d : Directive} {as : List Answer}
    (hall : (askAll m cfg path (d.request? position).toList).run h = (as, h'))
    (more : List Answer) :
    (d.Refused (as ++ more) ∧ ∃ report : Diagnostic, report.path = path ∧
      report.position = position ∧
      reportsOf (changesOf m path (d.request? position).toList as) = [report]) ∨
    (¬ d.Refused (as ++ more) ∧
      reportsOf (changesOf m path (d.request? position).toList as) = []) := by
  have hrefusal : ∀ message, d.request? position = some (.refusal position message) →
      ∃ report : Diagnostic, report.path = path ∧ report.position = position ∧
        reportsOf (changesOf m path (d.request? position).toList as) = [report] := by
    intro message hrequest
    rw [hrequest] at hall ⊢
    obtain ⟨a, rfl, -⟩ := run_askAll_single hall
    exact ⟨_, rfl, rfl, rfl⟩
  have hpush : ∀ r : Request, (∀ a, reportsOf (r.changes m path a) = []) →
      d.request? position = some r →
      reportsOf (changesOf m path (d.request? position).toList as) = [] := by
    intro r hnone hrequest
    rw [hrequest] at hall ⊢
    obtain ⟨a, rfl, -⟩ := run_askAll_single hall
    rw [Option.toList_some, changesOf_single, hnone]
  cases d with
  | flags text => exact .inr ⟨id, hpush (.push _) (fun _ => rfl) rfl⟩
  | interpreter => exact .inr ⟨id, rfl⟩
  | unknown text => exact .inl ⟨trivial, hrefusal _ rfl⟩
  | keyValue name value =>
    by_cases hknown : name ∈ Directive.keys
    case neg =>
      refine .inl ⟨.inl hknown, hrefusal s!"unknown directive: {name}: {value}" ?_⟩
      simp only [Directive.keys, List.mem_cons, List.not_mem_nil, or_false, not_or] at hknown
      obtain ⟨hcxx, hprivate, hrequires, hsource⟩ := hknown
      rw [Directive.request?] <;> assumption
    simp only [Directive.keys, List.mem_cons, List.not_mem_nil, or_false] at hknown
    rcases hknown with rfl | rfl | rfl | rfl
    · exact .inr ⟨by simp [Directive.Refused, Directive.keys], hpush (.push _) (fun _ => rfl) rfl⟩
    · exact .inr ⟨by simp [Directive.Refused, Directive.keys],
        hpush (.pushPrivate _) (fun _ => rfl) rfl⟩
    · obtain ⟨a, rfl, hask⟩ := run_askAll_single (r := .requirement position value) hall
      obtain ⟨r, h₁, hr⟩ := exists_run (Package.flagsFor m cfg.pkgConfig value) h
      rw [Request.ask, run_bind_of_run hr] at hask
      cases hask
      cases r with
      | ok flags => exact .inr ⟨by simp [Directive.Refused, Directive.keys], rfl⟩
      | error e =>
        obtain ⟨hpath, hposition⟩ := ofRequirement_place path position value e
        exact .inl ⟨by simp [Directive.Refused], _, hpath, hposition, rfl⟩
    · have hrequest : (Directive.keyValue "source" value).request? position =
          some (.ofSource position value) := rfl
      by_cases hone : (Text.Words.split value).length = 1
      · obtain ⟨target, htarget⟩ := List.length_eq_one_iff.mp hone
        rw [Request.ofSource, htarget] at hrequest
        refine .inr ⟨by simp [Directive.Refused, Directive.keys, hone],
          hpush (.source target) (fun a => ?_) hrequest⟩
        cases a <;> rfl
      · refine .inl ⟨.inr (.inl ⟨rfl, hone⟩),
          hrefusal s!"source: expected one path, got '{value}'" ?_⟩
        rw [hrequest, Request.ofSource]
        split
        · next target htarget => exact absurd (by rw [htarget]; rfl) hone
        · rfl

/-- The include of a line is not reported. -/
theorem reportsOf_include (index : Nat) (i : Include) (as : List Answer) :
    reportsOf (changesOf m path (i.request? index).toList as) = [] := by
  have hnone : ∀ r : Request, (∀ a, reportsOf (r.changes m path a) = []) →
      reportsOf (changesOf m path [r] as) = [] := by
    intro r hr
    cases as with
    | nil => rfl
    | cons a rest =>
      have hchanges : changesOf m path [r] (a :: rest) = changesOf m path [r] [a] := rfl
      rw [hchanges, changesOf_single, hr]
  cases i with
  | beside target =>
    refine hnone (.header target) fun a => ?_
    cases a with
    | files header? source? => cases header? <;> cases source? <;> rfl
    | _ => rfl
  | system header =>
    unfold Include.request?
    dsimp only
    rcases Package.Implied.ofHeader? header with _ | text | name
    · rfl
    · exact hnone (.push _) fun _ => rfl
    · refine hnone (.package (index + 1) header name) fun a => ?_
      cases a with
      | flags r => cases r <;> rfl
      | _ => rfl

/-- A line that offends is reported, once and at the place of its marker; any other is not. -/
theorem reportsOf_line {index : Nat} {line : List Char} {as : List Answer}
    (hall : (askAll m cfg path (requestsOn index line)).run h = (as, h')) :
    (Offends line as ∧ ∃ report place, reportsOf (changesOf m path (requestsOn index line) as) =
      [report] ∧ report.path = path ∧ findMarker? line = some place ∧
      report.position = ⟨index + 1, place + 1⟩) ∨
    (¬ Offends line as ∧ reportsOf (changesOf m path (requestsOn index line) as) = []) := by
  obtain ⟨first, behind, h₁, rfl, hlength, hfirst, -⟩ := run_askAll_append hall
  have hinclude : reportsOf (changesOf m path
      ((Include.ofLine? line).bind (·.request? index)).toList behind) = [] := by
    cases Include.ofLine? line with
    | none => rfl
    | some i => exact reportsOf_include index i behind
  rw [requestsOn, changesOf_append hlength, reportsOf, List.filterMap_append]
  rw [reportsOf] at hinclude
  rw [hinclude, List.append_nil, offends_iff index]
  cases hd : directiveOn? index line with
  | none => exact .inr ⟨by simp, rfl⟩
  | some found =>
    obtain ⟨position, d⟩ := found
    rw [hd] at hfirst
    obtain ⟨place, hplace, hposition⟩ : ∃ place, findMarker? line = some place ∧
        position = ⟨index + 1, place + 1⟩ := by
      rw [directiveOn?] at hd
      obtain ⟨place, hplace, heq⟩ := Option.map_eq_some_iff.mp hd
      exact ⟨place, hplace, (congrArg Prod.fst heq).symm⟩
    rcases reportsOf_directive hfirst behind with
      ⟨hrefused, report, hpath, hat, hreport⟩ | ⟨hgood, hnone⟩
    · exact .inl ⟨⟨position, d, rfl, hrefused⟩, report, place, hreport, hpath, hplace,
        hat.trans hposition⟩
    · refine .inr ⟨?_, hnone⟩
      rintro ⟨position', d', hsome, hrefused⟩
      cases hsome
      exact hgood hrefused

/-! ## Line by line -/

/-- The reports `ds` are those of the lines from the one with index `index` on, of which the
requests were answered with `answers`: one for each line that offends, at the place of its marker.
-/
inductive Reported (path : Path) :
    Nat → List Bytes → List (List Answer) → List Diagnostic → Prop where
  | done {index : Nat} : Reported path index [] [] []
  | good {index : Nat} {line : Bytes} {as : List Answer} {rest : List Bytes}
      {more : List (List Answer)} {ds : List Diagnostic}
      (hgood : ¬ Offends (readableLine line) as) (hrest : Reported path (index + 1) rest more ds) :
    Reported path index (line :: rest) (as :: more) ds
  | bad {index place : Nat} {line : Bytes} {as : List Answer} {rest : List Bytes}
      {more : List (List Answer)} {d : Diagnostic} {ds : List Diagnostic}
      (hbad : Offends (readableLine line) as) (hpath : d.path = path)
      (hplace : findMarker? (readableLine line) = some place)
      (hposition : d.position = ⟨index + 1, place + 1⟩)
      (hrest : Reported path (index + 1) rest more ds) :
    Reported path index (line :: rest) (as :: more) (d :: ds)

/-- What is reported of lines that were all read is reported line by line. -/
theorem reported_hearLines {index : Nat} {lines : List Bytes} {answers : List (List Answer)}
    (hall : (hearLines m cfg path index lines).run h = ((none, answers), h')) :
    Reported path index lines answers
      (reportsOf (changesFrom m path index lines answers).flatten) := by
  induction lines generalizing index h answers with
  | nil =>
    cases hall
    exact .done
  | cons line rest ih =>
    rcases hearLines_cons hall with ⟨signal, -, ⟨⟩, -⟩ | ⟨h₁, as, h₂, more, -, hasked, hmore, rfl⟩
    have hrest := ih hmore
    have hsplit : reportsOf (changesFrom m path index (line :: rest) (as :: more)).flatten =
        reportsOf (changesOf m path (requestsOn index (readableLine line)) as) ++
          reportsOf (changesFrom m path (index + 1) rest more).flatten := by
      rw [changesFrom, List.flatten_cons, reportsOf, List.filterMap_append]
      rfl
    rw [hsplit]
    rcases reportsOf_line hasked with
      ⟨hbad, report, place, hreport, hpath, hplace, hposition⟩ | ⟨hgood, hnone⟩
    · rw [hreport]
      exact .bad hbad hpath hplace hposition hrest
    · rw [hnone]
      exact .good hgood hrest

namespace Reported

variable {index : Nat} {lines : List Bytes} {answers : List (List Answer)} {ds : List Diagnostic}

/-- There are as many answers as lines. -/
theorem length_answers (hr : Reported path index lines answers ds) :
    answers.length = lines.length := by
  induction hr with
  | done => rfl
  | good _ _ ih => simp [ih]
  | bad _ _ _ _ _ ih => simp [ih]

/-- No report stands before the first line. -/
theorem line_gt (hr : Reported path index lines answers ds) :
    ∀ d ∈ ds, index < d.position.line := by
  induction hr with
  | done => simp
  | good _ _ ih =>
    intro d hd
    have := ih d hd
    omega
  | bad _ _ _ hposition _ ih =>
    refine List.forall_mem_cons.mpr ⟨by simp [hposition], fun d hd => ?_⟩
    have := ih d hd
    omega

/-- The lines of the reports increase. -/
theorem increasing (hr : Reported path index lines answers ds) :
    (ds.map (·.position.line)).Pairwise (· < ·) := by
  induction hr with
  | done => exact .nil
  | good _ _ ih => exact ih
  | bad _ _ _ hposition hrest ih =>
    rw [List.map_cons, List.pairwise_cons]
    refine ⟨fun line hline => ?_, ih⟩
    obtain ⟨d, hd, rfl⟩ := List.mem_map.mp hline
    simpa [hposition] using hrest.line_gt d hd

/-- A line is reported just when it offends. -/
theorem exists_iff (hr : Reported path index lines answers ds) (k : Nat) :
    (∃ d ∈ ds, d.position.line = index + k + 1) ↔
      ∃ line as, lines[k]? = some line ∧ answers[k]? = some as ∧
        Offends (readableLine line) as := by
  induction hr generalizing k with
  | done => simp
  | @good index line as rest more ds hgood hrest ih =>
    cases k with
    | zero =>
      have hnone : ¬ ∃ d ∈ ds, d.position.line = index + 0 + 1 := by
        rintro ⟨d, hd, hline⟩
        have := hrest.line_gt d hd
        omega
      simpa [hgood] using hnone
    | succ k =>
      have hshift : index + (k + 1) + 1 = index + 1 + k + 1 := by omega
      simpa [hshift] using ih k
  | @bad index place line as rest more d ds hbad hpath hplace hposition hrest ih =>
    cases k with
    | zero => simp [hposition, hbad]
    | succ k =>
      have hshift : index + (k + 1) + 1 = index + 1 + k + 1 := by omega
      have hother : d.position.line ≠ index + 1 + k + 1 := by
        rw [hposition]
        dsimp only
        omega
      simpa [hshift, hother] using ih k

/-- A report blames the file, and stands where the directive of its line stands in it. -/
theorem stands (hr : Reported path index lines answers ds) :
    ∀ d ∈ ds, d.path = path ∧ ∃ k line place, lines[k]? = some line ∧
      DirectiveAt line place ∧ d.position = ⟨index + k + 1, place + 1⟩ := by
  induction hr with
  | done => simp
  | @good index line as rest more ds hgood hrest ih =>
    intro d hd
    obtain ⟨hpath, k, line, place, hline, hat, hposition⟩ := ih d hd
    refine ⟨hpath, k + 1, line, place, hline, hat, ?_⟩
    rw [hposition]
    simp only [Position.mk.injEq, and_true]
    omega
  | @bad index place line as rest more d ds hbad hpath hplace hposition hrest ih =>
    refine List.forall_mem_cons.mpr ⟨?_, fun d hd => ?_⟩
    · exact ⟨hpath, 0, line, place, rfl, findMarker?_readableLine hplace, hposition⟩
    · obtain ⟨hpath, k, line, place, hline, hat, hposition⟩ := ih d hd
      refine ⟨hpath, k + 1, line, place, hline, hat, ?_⟩
      rw [hposition]
      simp only [Position.mk.injEq, and_true]
      omega

end Reported

/-! ## Flags -/

/-- There are as many answers as requests. -/
theorem length_askAll {rs : List Request} {as : List Answer}
    (hall : (askAll m cfg path rs).run h = (as, h')) : as.length = rs.length := by
  rw [← List.append_nil rs] at hall
  obtain ⟨first, behind, h₁, rfl, hlength, -, hbehind⟩ := run_askAll_append hall
  cases hbehind
  rw [List.append_nil, hlength]

/-- Every line that is read has its requests answered. -/
theorem length_hearLines {index : Nat} {lines : List Bytes} {signal? : Option Signal}
    {answers : List (List Answer)}
    (hall : (hearLines m cfg path index lines).run h = ((signal?, answers), h')) {k : Nat}
    {line : Bytes} {as : List Answer} (hline : lines[k]? = some line)
    (has : answers[k]? = some as) :
    as.length = (requestsOn (index + k) (readableLine line)).length := by
  induction lines generalizing index h answers k with
  | nil => cases hline
  | cons first rest ih =>
    rcases hearLines_cons hall with ⟨-, -, -, rfl⟩ | ⟨h₁, as₁, h₂, more, -, hasked, hmore, rfl⟩
    · cases has
    · cases k with
      | zero =>
        cases hline
        cases has
        exact length_askAll hasked
      | succ k =>
        have hshift : index + (k + 1) = index + 1 + k := by omega
        rw [hshift]
        exact ih hmore hline has

/-- The changes that one line makes are among those of all lines. -/
theorem changesOf_subset (m : Machine) (path : Path) {index : Nat} {lines : List Bytes}
    {answers : List (List Answer)} {k : Nat} {line : Bytes} {as : List Answer}
    (hline : lines[k]? = some line) (has : answers[k]? = some as) :
    changesOf m path (requestsOn (index + k) (readableLine line)) as ⊆
      (changesFrom m path index lines answers).flatten := by
  induction lines generalizing index answers k with
  | nil => cases hline
  | cons first rest ih =>
    cases answers with
    | nil => cases has
    | cons as₁ more =>
      rw [changesFrom, List.flatten_cons]
      cases k with
      | zero =>
        cases hline
        cases has
        exact List.subset_append_left ..
      | succ k =>
        have hshift : index + (k + 1) = index + 1 + k := by omega
        rw [hshift]
        exact List.subset_append_of_subset_right _ (ih hline has)

end Scan

namespace Source

open Scan

/-- What a directive asks for, its requests being answered with `as`, is among the flags of a
unit. -/
def Directive.Pushed (as : List Answer) (u : CompilationUnit) : Directive → Prop
  | .flags text => Text.Words.split text <:+: u.flags
  | .keyValue "cxx" value => [compilerFlag ++ value] <:+: u.flags
  | .keyValue "private" value => Text.Words.split value <:+: u.privateFlags
  | .keyValue "requires" _ => ∀ flags, as.head? = some (.flags (.ok flags)) → flags <:+: u.flags
  | _ => True

/-- What the directive of a line asks for is among the flags of a unit when all is that its line
pushes. -/
theorem pushed_of_changes (m : Machine) (path : Path) {u : CompilationUnit} {index : Nat}
    {line : List Char} {as : List Answer} {position : Position} {d : Directive}
    (hd : directiveOn? index line = some (position, d))
    (hlength : as.length = (requestsOn index line).length)
    (hflags : ∀ run, .flags run ∈ changesOf m path (requestsOn index line) as → run <:+: u.flags)
    (hprivate : ∀ run, .privateFlags run ∈ changesOf m path (requestsOn index line) as →
      run <:+: u.privateFlags) : d.Pushed as u := by
  -- The request of the directive is the first one, and so is the answer to it.
  have hfirst : ∀ r, d.request? position = some r → ∃ a, as.head? = some a ∧
      r.changes m path a ⊆ changesOf m path (requestsOn index line) as := by
    intro r hr
    have hrequests : requestsOn index line =
        r :: ((Include.ofLine? line).bind (·.request? index)).toList := by
      rw [requestsOn, hd, Option.bind_some, hr]
      rfl
    rw [hrequests] at hlength ⊢
    cases as with
    | nil => cases hlength
    | cons a more => exact ⟨a, rfl, List.subset_append_left ..⟩
  unfold Directive.Pushed
  split
  · obtain ⟨a, -, hsub⟩ := hfirst _ rfl
    exact hflags _ (hsub List.mem_cons_self)
  · obtain ⟨a, -, hsub⟩ := hfirst _ rfl
    exact hflags _ (hsub List.mem_cons_self)
  · obtain ⟨a, -, hsub⟩ := hfirst _ rfl
    exact hprivate _ (hsub List.mem_cons_self)
  · intro flags hanswer
    obtain ⟨a, hhead, hsub⟩ := hfirst _ rfl
    rw [hanswer] at hhead
    cases hhead
    exact hflags _ (hsub List.mem_cons_self)
  · trivial

end Source

namespace CompilationUnit

open Source Scan

variable {m : Machine} {cfg : Config} {u u' : CompilationUnit} {h h' : Host} {content : Bytes}

/-! ## The whole file -/

/-- A scan that no interrupt has cut short has read all lines, and reports what follows from what it
was told. -/
theorem scan_quiet {r : Except ScanError (List CompilationUnit)}
    (hread : h.files.read m.cwd u.path = .ok content)
    (hscan : (u.scan m cfg).run h = ((r, u'), h'))
    (hquiet : ∀ e, r = .error e → e.interruptSignal? = none) :
    ∃ answers k, (hearLines m cfg u.path 0 (rawLines content)).run (h.noted (.scanning u.path)) =
        ((none, answers), k) ∧
      u.Reads m cfg h content none (u.told m ⟨content, none, answers⟩) k ∧
      h'.reports = h.reports ++ (u.told m ⟨content, none, answers⟩).diagnostics := by
  obtain ⟨⟨signal?, answers⟩, k, hlines⟩ :=
    exists_run (hearLines m cfg u.path 0 (rawLines content)) (h.noted (.scanning u.path))
  have hheard := run_hear_of_readable hread hlines
  cases signal? with
  | some signal =>
    rw [run_scan_interrupted (reads_of_hear hheard)] at hscan
    cases hscan
    cases hquiet _ rfl
  | none =>
    exact ⟨answers, k, hlines, reads_of_hear hheard,
      (leads_of_run hscan _).mp (reports_of_hear hheard)⟩

/-- A scan fails on its directives just when it has reports, and tells how many. -/
theorem scan_processingFailed_iff {r : Except ScanError (List CompilationUnit)} {s : Scan}
    {k : Host}
    (hr : u.Reads m cfg h content none s k) (hscan : (u.scan m cfg).run h = ((r, u'), h'))
    (path : Path) (count : Nat) : r = .error (.processingFailed path count) ↔
      s.diagnostics ≠ [] ∧ path = u.path ∧ count = s.diagnostics.length := by
  by_cases hnil : s.diagnostics = []
  case neg =>
    rw [run_scan_reported hr hnil] at hscan
    cases hscan
    simp [hnil, eq_comm]
  case pos =>
    obtain ⟨⟨r', u₁⟩, h₁, hw⟩ :=
      exists_run (Scan.writeCopy m cfg content { s.unit with scanned := true }) k
    rw [run_scan_clean hr hnil hw] at hscan
    cases hscan
    refine iff_of_false (fun herror => ?_) fun hfailed => hfailed.1 hnil
    cases r' with
    | ok _ => cases herror
    | error e =>
      rcases writeCopy_error hw with ⟨cause, rfl⟩ | ⟨cause, rfl⟩ <;> cases herror

/-- What a scan from `h` to `h'` reports that no interrupt has cut short: `ds`, when the reading of
the lines was given `answers`. -/
structure Reports (m : Machine) (cfg : Config) (u u' : CompilationUnit) (h h' : Host)
    (content : Bytes) (r : Except ScanError (List CompilationUnit)) (answers : List (List Answer))
    (ds : List Diagnostic) : Prop where
  heard : ((hearLines m cfg u.path 0 (rawLines content)).run (h.noted (.scanning u.path))).1 =
    (none, answers)
  length : answers.length = (rawLines content).length
  reports : h'.reports = h.reports ++ ds
  /-- The reports come in the order of the lines, one for a line. -/
  increasing : (ds.map (·.position.line)).Pairwise (· < ·)
  /-- Each line that offends is reported, and no other line. -/
  offends : ∀ k, (∃ d ∈ ds, d.position.line = k + 1) ↔
    ∃ line as, (rawLines content)[k]? = some line ∧ answers[k]? = some as ∧
      Offends (readableLine line) as
  /-- A report stands where the directive of its line stands in the file. -/
  stands : ∀ d ∈ ds, d.path = u.path ∧ ∃ k line place, (rawLines content)[k]? = some line ∧
    DirectiveAt line place ∧ d.position = ⟨k + 1, place + 1⟩
  /-- The scan fails on its directives just when it has reports, and tells how many. -/
  fails : ∀ path count, r = .error (.processingFailed path count) ↔
    ds ≠ [] ∧ path = u.path ∧ count = ds.length
  /-- Then package queries alone have changed files, and the unit is as before, but scanned and with
  all the flags that the lines ask for, those of the lines that do not offend being among them. -/
  pushed : ds ≠ [] → Package.Asked m cfg.pkgConfig h.files h'.files ∧
    u' = { flagged u (changesFrom m u.path 0 (rawLines content) answers).flatten with
      scanned := true } ∧
    ∀ k line as position d, (rawLines content)[k]? = some line → answers[k]? = some as →
      directiveOn? k (readableLine line) = some (position, d) → d.Pushed as u'

/-- A scan that no interrupt cuts short reports each line that offends, where its directive stands,
and does all the same what the other lines ask for. -/
theorem scan_reports (m : Machine) (cfg : Config) (u u' : CompilationUnit) (h h' : Host)
    (content : Bytes) (r : Except ScanError (List CompilationUnit))
    (hread : h.files.read m.cwd u.path = .ok content)
    (hscan : (u.scan m cfg).run h = ((r, u'), h'))
    (hquiet : ∀ e, r = .error e → e.interruptSignal? = none) :
    ∃ answers ds, Reports m cfg u u' h h' content r answers ds := by
  obtain ⟨answers, k, hlines, hr, hreports⟩ := scan_quiet hread hscan hquiet
  have hreported := reported_hearLines hlines
  have hfailed := scan_processingFailed_iff hr hscan
  have htold := told_eq m u ⟨content, none, answers⟩
  rw [htold] at hreports
  simp only [htold] at hfailed
  refine ⟨answers, reportsOf (changesFrom m u.path 0 (rawLines content) answers).flatten, ?_⟩
  refine
    { heard := congrArg Prod.fst hlines
      length := hreported.length_answers
      reports := hreports
      increasing := hreported.increasing
      offends := fun i => by simpa using hreported.exists_iff i
      stands := fun d hd => by simpa using hreported.stands d hd
      fails := hfailed
      pushed := ?pushed }
  case pushed =>
    intro hne
    rw [run_scan_reported hr (by rw [htold]; exact hne), htold] at hscan
    have hu : u' = { flagged u (changesFrom m u.path 0 (rawLines content) answers).flatten with
        scanned := true } := (congrArg (·.1.2) hscan).symm
    have hfiles : h'.files = k.files := (congrArg (·.2.files) hscan).symm
    refine ⟨hfiles ▸ hr.asked, hu, fun i line as position d hline has hd => ?_⟩
    have hlength := length_hearLines hlines hline has
    have hsub : changesOf m u.path (requestsOn (0 + i) (readableLine line)) as ⊆
        (changesFrom m u.path 0 (rawLines content) answers).flatten :=
      changesOf_subset m u.path hline has
    rw [Nat.zero_add] at hlength hsub
    refine pushed_of_changes m u.path hd hlength (fun run hrun => ?_) fun run hrun => ?_
    · rw [hu]
      exact Flags.infix_pushAll (List.mem_filterMap.mpr ⟨_, hsub hrun, rfl⟩)
    · rw [hu]
      exact Flags.infix_pushAll (List.mem_filterMap.mpr ⟨_, hsub hrun, rfl⟩)

/-- A script with lines of all kinds: flags, a marker in a literal, an unknown key behind two gaps,
an unknown directive on a line that begins with `#!`, a package that cannot be had, two sources
where one is wanted, and private flags. -/
def medleyText : Bytes := Text.Utf8.encode
  ("//#! -lm\nf(\"//#! a: b\");\n  //#! odd: 1\n\t#! odd\n//#! requires: zlib\n" ++
    "é //#! source: a.cpp b.cpp\n//#! private: -DX\n")

/-- The host of that script. -/
def medley : Host where
  files := { entries := [(["w"], .directory), (["w", "m.cpp"], .file medleyText false)] }

/-- The unit for that script. -/
def medleyUnit : CompilationUnit := .ofPath desk medley .source ⟨"m.cpp"⟩

/-- The scan of that script. -/
def medleyRun : (Except ScanError (List CompilationUnit) × CompilationUnit) × Host :=
  (medleyUnit.scan desk { cacheRoot := ⟨"c"⟩ }).run medley

/-- Four lines are reported, each at its place, and the flags of the first line and of the last one
are pushed. -/
theorem scan_reports_medley :
    medley.files.read desk.cwd medleyUnit.path = .ok medleyText ∧
      medleyRun.1.1 = .error (.processingFailed ⟨"m.cpp"⟩ 4) ∧
      ∃ ds, medleyRun.2.reports = ds ∧
        ds.map (·.position) = [⟨3, 3⟩, ⟨4, 2⟩, ⟨5, 1⟩, ⟨6, 3⟩] ∧
        (ds.map (·.position.line)).Pairwise (· < ·) ∧
        Package.Asked desk "pkg-config" medley.files medleyRun.2.files ∧
        medleyRun.1.2.flags = ["-lm"] ∧ medleyRun.1.2.privateFlags = ["-DX"] := by
  have hread : medley.files.read desk.cwd medleyUnit.path = .ok medleyText := by decide +kernel
  have hfailed : medleyRun.1.1 = .error (.processingFailed ⟨"m.cpp"⟩ 4) := by decide +kernel
  have hplaces : medleyRun.2.reports.map (·.position) = [⟨3, 3⟩, ⟨4, 2⟩, ⟨5, 1⟩, ⟨6, 3⟩] := by
    decide +kernel
  have hflags : medleyRun.1.2.flags = ["-lm"] ∧ medleyRun.1.2.privateFlags = ["-DX"] := by
    decide +kernel
  obtain ⟨⟨⟨r, u'⟩, h'⟩, hrun⟩ : ∃ x, medleyRun = x := ⟨_, rfl⟩
  rw [hrun] at hfailed hplaces hflags ⊢
  cases hfailed
  have hquiet : ∀ e : ScanError, (Except.error (.processingFailed ⟨"m.cpp"⟩ 4) :
      Except ScanError (List CompilationUnit)) = .error e → e.interruptSignal? = none := by
    rintro e he
    cases he
    rfl
  obtain ⟨answers, ds, hscan⟩ := scan_reports _ _ _ _ _ _ _ _ hread hrun hquiet
  have hds : h'.reports = ds := hscan.reports
  obtain ⟨hasked, -⟩ := hscan.pushed ((hscan.fails _ _).mp rfl).1
  exact ⟨hread, rfl, ds, hds, hds ▸ hplaces, hscan.increasing, hasked, hflags⟩

end CompilationUnit

end CxxScript

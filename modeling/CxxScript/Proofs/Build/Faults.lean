import CxxScript.Proofs.Build.Collection

/-!
# Why a scan fails

A scan takes one of four courses: the file cannot be read; an interrupt cuts the reading short; what
was read is reported to be wrong; or all is well so far and the copy is written, where one is
needed. `CompilationUnit.Fault` lists the ways in which these end in an error, and
`scan_error_iff` says that there are no others. What is reported comes from the directives alone,
each at the moment its line is read: `readLines_reports`.
-/

set_option autoImplicit false

namespace CxxScript

open Host

/-! ## Directives that are reported -/

namespace Source.Directive

/-- The keys that a directive may have. -/
def keys : List String := ["cxx", "private", "requires", "source"]

/-- Whether a directive that is followed from a host is reported: it is in no known form, its key is
unknown, it is to name one source and does not, or it requires what cannot be had. -/
def Bad (m : Machine) (cfg : Config) (h : Host) : Directive → Prop
  | .flags _ | .interpreter => False
  | .unknown _ => True
  | .keyValue name value => name ∉ keys ∨
      (name = "source" ∧ (Text.Words.split value).length ≠ 1) ∨
      (name = "requires" ∧ ((Package.flagsFor m cfg.pkgConfig value).run h).1.isOk = false)

end Source.Directive

/-- An interrupt that is seen is pending. -/
theorem Host.poll_pending {m : Machine} {h h' : Host} {signal : Signal}
    (hpoll : (poll m).run h = (some signal, h')) :
    h'.signals.pendingInterrupt? = some signal := by
  obtain ⟨hseen, rfl⟩ := Prod.mk.inj hpoll
  exact hseen

namespace Scan

open Source

variable {m : Machine} {cfg : Config}

/-- From `s` to `s'` one report has been added if `bad` and none otherwise. -/
def Reports (bad : Prop) (s s' : Scan) : Prop :=
  (bad ∧ ∃ d, s'.diagnostics = s.diagnostics ++ [d]) ∨ (¬ bad ∧ s'.diagnostics = s.diagnostics)

/-- A directive is reported just when it is bad. -/
theorem apply_reports (position : Position) (d : Directive) (s : Scan) (h : Host) :
    Leads (s.apply m cfg position d) h fun s' _ => Reports (d.Bad m cfg h) s s' := by
  unfold apply
  split
  · exact .inr ⟨id, rfl⟩
  · exact .inr ⟨id, rfl⟩
  · exact .inr ⟨by simp [Directive.Bad, Directive.keys], rfl⟩
  · exact .inr ⟨by simp [Directive.Bad, Directive.keys], rfl⟩
  · next value =>
    obtain ⟨r, h', hr⟩ := exists_run (Package.flagsFor m cfg.pkgConfig value) h
    rw [leads_bind, leads_of_run hr]
    cases r with
    | ok flags =>
      refine .inr ⟨?_, rfl⟩
      simp [Directive.Bad, Directive.keys, hr, Except.isOk, Except.toBool]
    | error e =>
      refine .inl ⟨.inr (.inr ⟨rfl, ?_⟩), _, rfl⟩
      rw [hr]
      rfl
  · next value =>
    split
    · next target hsplit =>
      rw [leads_bind, leads_note, leads_bind, leads_get]
      exact .inr ⟨by simp [Directive.Bad, Directive.keys, hsplit], diagnostics_refer _ _⟩
    · next hsplit =>
      refine .inl ⟨.inr (.inl ⟨rfl, fun hone => ?_⟩), _, rfl⟩
      obtain ⟨target, ht⟩ := List.length_eq_one_iff.mp hone
      exact hsplit target ht
  · next name value hcxx hprivate hrequires hsource =>
    refine .inl ⟨.inl ?_, _, rfl⟩
    simp only [Directive.keys, List.mem_cons, List.not_mem_nil, or_false, not_or]
    exact ⟨hcxx, hprivate, hrequires, hsource⟩
  · exact .inl ⟨trivial, _, rfl⟩

/-- An include is never reported. -/
theorem follow_reports (index : Nat) (i : Include) (s : Scan) (h : Host) :
    Leads (s.follow m cfg index i) h fun s' _ => s'.diagnostics = s.diagnostics :=
  follow_keeps diagnostics_refer (fun _ _ => rfl) index i s h

/-- Whether a line with an index carries a directive that is bad when it is read from a host. -/
def BadLine (m : Machine) (cfg : Config) (index : Nat) (line : List Char) (h : Host) : Prop :=
  ∃ position d, directiveOn? index line = some (position, d) ∧ d.Bad m cfg h

/-- A line is reported just when its directive is bad. -/
theorem readLine_reports (index : Nat) (line : List Char) (s : Scan) (h : Host) :
    Leads (s.readLine m cfg index line) h fun s' _ =>
      Reports (BadLine m cfg index line h) s s' := by
  refine readLine_leads (fun hd => .inr ⟨?_, rfl⟩) (fun position d hd => ?_) fun i s' h' hs => ?_
  · rintro ⟨position, d, hsome, -⟩
    rw [hd] at hsome
    cases hsome
  · have hbad : BadLine m cfg index line h ↔ d.Bad m cfg h := by
      constructor
      · rintro ⟨position', d', hsome, hbad⟩
        rw [hd] at hsome
        cases hsome
        exact hbad
      · exact fun hbad => ⟨position, d, hd, hbad⟩
    rw [hbad]
    exact apply_reports position d s h
  · -- What an include leads to is not reported.
    refine (follow_reports index i s' h').mono fun s'' _ heq => ?_
    rw [Reports, heq]
    exact hs

/-- Whether, when lines are read from the one with index `index` on, one of them is reached without
an interrupt and carries a bad directive. -/
def BadAmong (m : Machine) (cfg : Config) (index : Nat) (lines : List Bytes) (s : Scan)
    (h : Host) : Prop :=
  ∃ before line after s₁ h₁ h₂, lines = before ++ line :: after ∧
    (readLines m cfg index before s).run h = ((none, s₁), h₁) ∧
    (Host.poll m).run h₁ = (none, h₂) ∧
    BadLine m cfg (index + before.length) (readableLine line) h₂

/-- Where no interrupt is seen, a line is read and then those behind it. -/
theorem run_readLines_cons {index : Nat} {line : Bytes} {rest : List Bytes} {s s' : Scan}
    {h h₁ h₂ : Host} (hpoll : (Host.poll m).run h = (none, h₁))
    (hline : (s.readLine m cfg index (readableLine line)).run h₁ = (s', h₂)) :
    (readLines m cfg index (line :: rest) s).run h =
      (readLines m cfg (index + 1) rest s').run h₂ := by
  rw [readLines, run_bind_of_run hpoll]
  dsimp only
  rw [run_bind_of_run hline]

/-- An interrupt that is seen ends the reading. -/
theorem run_readLines_interrupted {index : Nat} {line : Bytes} {rest : List Bytes} {s : Scan}
    {h h₁ : Host} {signal : Signal} (hpoll : (Host.poll m).run h = (some signal, h₁)) :
    (readLines m cfg index (line :: rest) s).run h = ((some signal, s), h₁) := by
  rw [readLines, run_bind_of_run hpoll]
  rfl

/-- Where no interrupt is seen before some lines are read, the reading goes on behind them. -/
theorem run_readLines_append {index : Nat} {before rest : List Bytes} {s s' : Scan} {h h' : Host}
    (hr : (readLines m cfg index before s).run h = ((none, s'), h')) :
    (readLines m cfg index (before ++ rest) s).run h =
      (readLines m cfg (index + before.length) rest s').run h' := by
  induction before generalizing index s h with
  | nil =>
    cases hr
    rfl
  | cons line before ih =>
    obtain ⟨signal?, h₁, hpoll⟩ := exists_run (Host.poll m) h
    cases signal? with
    | some signal =>
      rw [run_readLines_interrupted hpoll] at hr
      cases hr
    | none =>
      obtain ⟨s₁, h₂, hline⟩ := exists_run (s.readLine m cfg index (readableLine line)) h₁
      rw [run_readLines_cons hpoll hline] at hr
      rw [List.cons_append, run_readLines_cons hpoll hline, ih hr, List.length_cons,
        Nat.add_assoc, Nat.add_comm 1]

/-- The reading of lines is cut short where, those before having been read, an interrupt is
seen. -/
theorem readLines_interrupted {index : Nat} {lines : List Bytes} {s s' : Scan} {h h' : Host}
    {signal : Signal} (hr : (readLines m cfg index lines s).run h = ((some signal, s'), h')) :
    ∃ before line after k, lines = before ++ line :: after ∧
      (readLines m cfg index before s).run h = ((none, s'), k) ∧
      (Host.poll m).run k = (some signal, h') := by
  induction lines generalizing index s h with
  | nil => cases hr
  | cons line rest ih =>
    obtain ⟨signal?, h₁, hpoll⟩ := exists_run (Host.poll m) h
    cases signal? with
    | some seen =>
      rw [run_readLines_interrupted hpoll] at hr
      cases hr
      exact ⟨[], line, rest, h, rfl, rfl, hpoll⟩
    | none =>
      obtain ⟨s₁, h₂, hline⟩ := exists_run (s.readLine m cfg index (readableLine line)) h₁
      rw [run_readLines_cons hpoll hline] at hr
      obtain ⟨before, next, after, k, rfl, hbefore, hseen⟩ := ih hr
      refine ⟨line :: before, next, after, k, rfl, ?_, hseen⟩
      rw [run_readLines_cons hpoll hline]
      exact hbefore

/-- After the reading of all lines there are reports just when there were some before or one of the
lines carries a bad directive. -/
theorem readLines_reports {index : Nat} {lines : List Bytes} {s s' : Scan} {h h' : Host}
    (hr : (readLines m cfg index lines s).run h = ((none, s'), h')) :
    s'.diagnostics ≠ [] ↔ s.diagnostics ≠ [] ∨ BadAmong m cfg index lines s h := by
  induction lines generalizing index s h with
  | nil =>
    cases hr
    refine ⟨.inl, fun hor => hor.resolve_right ?_⟩
    rintro ⟨before, line, after, s₁, h₁, h₂, hsplit, -⟩
    cases before <;> cases hsplit
  | cons line rest ih =>
    obtain ⟨signal?, h₁, hpoll⟩ := exists_run (Host.poll m) h
    cases signal? with
    | some signal =>
      rw [run_readLines_interrupted hpoll] at hr
      cases hr
    | none =>
      obtain ⟨s₁, h₂, hline⟩ := exists_run (s.readLine m cfg index (readableLine line)) h₁
      rw [run_readLines_cons hpoll hline] at hr
      have hreports := (leads_of_run hline _).mp (readLine_reports index (readableLine line) s h₁)
      -- The first line is the bad one, or the bad one is among the lines behind it.
      have hsplit : BadAmong m cfg index (line :: rest) s h ↔
          BadLine m cfg index (readableLine line) h₁ ∨ BadAmong m cfg (index + 1) rest s₁ h₂ := by
        constructor
        · rintro ⟨before, bad, after, s₂, h₃, h₄, hlines, hbefore, hpoll', hbad⟩
          cases before with
          | nil =>
            cases hlines
            cases hbefore
            rw [hpoll] at hpoll'
            cases hpoll'
            exact .inl hbad
          | cons first before =>
            cases hlines
            rw [run_readLines_cons hpoll hline] at hbefore
            refine .inr ⟨before, bad, after, s₂, h₃, h₄, rfl, hbefore, hpoll', ?_⟩
            rw [List.length_cons] at hbad
            rwa [Nat.add_assoc, Nat.add_comm 1]
        · rintro (hbad | ⟨before, bad, after, s₂, h₃, h₄, rfl, hbefore, hpoll', hbad⟩)
          · exact ⟨[], line, rest, s, h, h₁, rfl, rfl, hpoll, hbad⟩
          · refine ⟨line :: before, bad, after, s₂, h₃, h₄, rfl, ?_, hpoll', ?_⟩
            · rw [run_readLines_cons hpoll hline]
              exact hbefore
            · rw [List.length_cons]
              rwa [Nat.add_assoc, Nat.add_comm 1] at hbad
      rw [ih hr, hsplit]
      rcases hreports with ⟨hbad, d, hd⟩ | ⟨hgood, hd⟩
      · have hne : s₁.diagnostics ≠ [] := by simp [hd]
        exact ⟨fun _ => .inr (.inl hbad), fun _ => .inl hne⟩
      · rw [hd, or_iff_right hgood]

end Scan

/-! ## The courses of a scan -/

/-- The host after reports have been written down. -/
def Host.reported (h : Host) (ds : List Source.Diagnostic) : Host :=
  { h with events := h.events ++ ds.map .diagnostic }

/-- Writing reports down. -/
theorem Host.run_report (ds : List Source.Diagnostic) (h : Host) :
    (Host.report ds).run h = ((), h.reported ds) := rfl

/-- No report leaves the host as it was. -/
theorem Host.reported_nil (h : Host) : h.reported [] = h := by
  rw [reported, List.map_nil, List.append_nil]

namespace CompilationUnit

open Source

variable {m : Machine} {cfg : Config} {u : CompilationUnit} {h h' : Host} {content : Bytes}
  {s : Scan}

/-- How the reading of a unit's file goes, from the host in which its scan begins: the content, the
interrupt that has cut the reading short, what has been read, and the host that is left. -/
structure Reads (m : Machine) (cfg : Config) (u : CompilationUnit) (h : Host) (content : Bytes)
    (signal? : Option Signal) (s : Scan) (h' : Host) : Prop where
  file : h.files.read m.cwd u.path = .ok content
  lines : (Scan.readLines m cfg 0 (rawLines content) { unit := u }).run
    (h.noted (.scanning u.path)) = ((signal?, s), h')

/-- Whether a line of the unit's file carries a bad directive. -/
def BadFile (m : Machine) (cfg : Config) (u : CompilationUnit) (h : Host) (content : Bytes) :
    Prop :=
  Scan.BadAmong m cfg 0 (rawLines content) { unit := u } (h.noted (.scanning u.path))

/-- There is something to report just when a line carries a bad directive. -/
theorem Reads.reports (hr : u.Reads m cfg h content none s h') :
    s.diagnostics ≠ [] ↔ u.BadFile m cfg h content := by
  have hempty : ¬ ({ unit := u } : Scan).diagnostics ≠ [] := fun hne => hne rfl
  rw [Scan.readLines_reports hr.lines, or_iff_right hempty]
  rfl

/-- Where no line carries a bad directive there is nothing to report. -/
theorem Reads.nil_of_good (hr : u.Reads m cfg h content none s h')
    (hgood : ¬ u.BadFile m cfg h content) : s.diagnostics = [] :=
  Decidable.not_not.mp fun hne => hgood (hr.reports.mp hne)

/-- Reading lines leaves the unit all but its flags. -/
theorem flagged_of_lines {lines : List Bytes} {signal? : Option Signal}
    (hlines : (Scan.readLines m cfg 0 lines { unit := u }).run h = ((signal?, s), h')) :
    u.Flagged s.unit :=
  ((leads_of_run hlines _).mp
    (Scan.readLines_extends (Discovery.trivialFrame m cfg).toFrame 0 _ _ _)).unit

/-- Reading leaves the unit all but its flags. -/
theorem Reads.flagged {signal? : Option Signal} (hr : u.Reads m cfg h content signal? s h') :
    u.Flagged s.unit := flagged_of_lines hr.lines

/-- A file that has been read is read in some way. -/
theorem exists_reads (cfg : Config) (hread : h.files.read m.cwd u.path = .ok content) :
    ∃ signal? s h', u.Reads m cfg h content signal? s h' := by
  obtain ⟨⟨signal?, s⟩, h', hr⟩ := exists_run
    (Scan.readLines m cfg 0 (rawLines content) { unit := u }) (h.noted (.scanning u.path))
  exact ⟨signal?, s, h', hread, hr⟩

/-- How a scan goes on when the lines have been read or an interrupt has cut the reading short. -/
def finish (m : Machine) (cfg : Config) (content : Bytes) :
    Option Signal × Scan → StateM Host (Except ScanError (List CompilationUnit) × CompilationUnit)
  | (some signal, s) => do
    Host.report s.diagnostics
    return (.error (.interrupted (.interrupted signal)), s.unit)
  | (none, s) => do
    let u := { s.unit with scanned := true }
    Host.report s.diagnostics
    if !s.diagnostics.isEmpty then
      return (.error (.processingFailed u.path s.diagnostics.length), u)
    match ← Scan.writeCopy m cfg content u with
    | (.error e, u) => return (.error e, u)
    | (.ok (), u) => return (.ok s.found, u)

/-- A scan of a file that can be read goes on behind the reading. -/
theorem run_scan_of_reads {signal? : Option Signal} (hr : u.Reads m cfg h content signal? s h') :
    (u.scan m cfg).run h = (finish m cfg content (signal?, s)).run h' := by
  have hnote : (note (.scanning u.path)).run h = ((), h.noted (.scanning u.path)) := rfl
  have hget : (get : StateM Host Host).run (h.noted (.scanning u.path)) =
      (h.noted (.scanning u.path), h.noted (.scanning u.path)) := rfl
  have hnoted : (h.noted (.scanning u.path)).files.read m.cwd u.path = .ok content := hr.file
  rw [scan, run_bind_of_run hnote, run_bind_of_run hget, hnoted]
  dsimp only
  rw [run_bind_of_run hr.lines]
  cases signal? <;> rfl

/-- What has been read is reported to be wrong. -/
theorem run_finish_reported (m : Machine) (cfg : Config) (content : Bytes) (h : Host)
    (hne : s.diagnostics ≠ []) : (finish m cfg content (none, s)).run h =
      ((.error (.processingFailed s.unit.path s.diagnostics.length),
        { s.unit with scanned := true }), h.reported s.diagnostics) := by
  have hsome : (!s.diagnostics.isEmpty) = true := by simpa using hne
  rw [finish, run_bind_of_run (run_report _ _)]
  dsimp only
  rw [if_pos hsome]
  rfl

/-- Where nothing is to be reported the copy comes last. -/
theorem run_finish_clean (hnil : s.diagnostics = []) {r : Except ScanError Unit}
    {u' : CompilationUnit}
    (hw : (Scan.writeCopy m cfg content { s.unit with scanned := true }).run h = ((r, u'), h')) :
    (finish m cfg content (none, s)).run h = ((r.map fun _ => s.found, u'), h') := by
  have hreport : (Host.report s.diagnostics).run h = ((), h) := by
    rw [run_report, hnil, reported_nil]
  have hnone : ¬ (!s.diagnostics.isEmpty) = true := by simp [hnil]
  rw [finish, run_bind_of_run hreport]
  dsimp only
  rw [if_neg hnone, run_bind_of_run hw]
  cases r <;> rfl

/-- A scan that an interrupt cuts short. -/
theorem run_scan_interrupted {signal : Signal}
    (hr : u.Reads m cfg h content (some signal) s h') : (u.scan m cfg).run h =
      ((.error (.interrupted (.interrupted signal)), s.unit), h'.reported s.diagnostics) := by
  rw [run_scan_of_reads hr]
  rfl

/-- A scan that finds something to report. -/
theorem run_scan_reported (hr : u.Reads m cfg h content none s h') (hne : s.diagnostics ≠ []) :
    (u.scan m cfg).run h =
      ((.error (.processingFailed u.path s.diagnostics.length), { s.unit with scanned := true }),
        h'.reported s.diagnostics) := by
  have hpath : s.unit.path = u.path := hr.flagged.follows.path
  rw [run_scan_of_reads hr, run_finish_reported m cfg content h' hne, hpath]

/-- A scan that finds nothing to report ends with the copy. -/
theorem run_scan_clean (hr : u.Reads m cfg h content none s h') (hnil : s.diagnostics = [])
    {r : Except ScanError Unit} {u' : CompilationUnit} {h'' : Host}
    (hw : (Scan.writeCopy m cfg content { s.unit with scanned := true }).run h' =
      ((r, u'), h'')) :
    (u.scan m cfg).run h = ((r.map fun _ => s.found, u'), h'') := by
  rw [run_scan_of_reads hr, run_finish_clean hnil hw]

/-! ## The faults -/

/-- The ways in which a scan of a unit from a host fails, with the error that each gives. -/
inductive Fault (m : Machine) (cfg : Config) (u : CompilationUnit) (h : Host) :
    ScanError → Prop where
  /-- The file cannot be read. -/
  | unreadable {cause : IoError} : h.files.read m.cwd u.path = .error cause →
      Fault m cfg u h (.read u.path cause)
  /-- An interrupt is seen before a line is read. -/
  | interrupted {content : Bytes} {signal : Signal} {s : Scan} {h' : Host} :
      u.Reads m cfg h content (some signal) s h' →
      Fault m cfg u h (.interrupted (.interrupted signal))
  /-- A line carries a bad directive, be it a requirement that cannot be met. -/
  | reported {content : Bytes} {s : Scan} {h' : Host} :
      u.Reads m cfg h content none s h' → u.BadFile m cfg h content →
      Fault m cfg u h (.processingFailed u.path s.diagnostics.length)
  /-- A line of a header begins with `#!`. -/
  | header {content : Bytes} {s : Scan} {h' : Host} :
      u.Reads m cfg h content none s h' → ¬ u.BadFile m cfg h content → u.kind = .header →
      needsCopy content = true → Fault m cfg u h (.unit (.headerNotCompiled u.path))
  /-- A line of a source begins with `#!`, and its copy cannot be written. -/
  | unwritten {content : Bytes} {s : Scan} {h' h'' : Host} {e : ScanError}
      {u' : CompilationUnit} :
      u.Reads m cfg h content none s h' → ¬ u.BadFile m cfg h content → u.kind = .source →
      needsCopy content = true →
      (Scan.writeCopy m cfg content { s.unit with scanned := true }).run h' =
        ((.error e, u'), h'') → Fault m cfg u h e

/-- No copy is written where none is needed. -/
theorem run_writeCopy_of_not_needed (hc : needsCopy content = false) (m : Machine) (cfg : Config)
    (u : CompilationUnit) (h : Host) :
    (Scan.writeCopy m cfg content u).run h = ((.ok (), u), h) := by
  rw [Scan.writeCopy, hc]
  rfl

/-- No copy is written of a header. -/
theorem run_writeCopy_header (hc : needsCopy content = true) (hk : u.kind = .header) (m : Machine)
    (cfg : Config) (h : Host) : (Scan.writeCopy m cfg content u).run h =
      ((.error (.unit (.headerNotCompiled u.path)), u), h) := by
  have hheader : u.isHeader = true := by rw [isHeader, hk]; rfl
  rw [Scan.writeCopy, hc, openCopy, hheader]
  rfl

/-- A copy that is not written fails on its place or on its content. -/
theorem writeCopy_error {e : ScanError} {u' : CompilationUnit}
    (hw : (Scan.writeCopy m cfg content u).run h = ((.error e, u'), h')) :
    (∃ cause, e = .unit cause) ∨ ∃ cause, e = .write u'.copy cause := by
  unfold Scan.writeCopy at hw
  split at hw
  · cases hw
  obtain ⟨⟨r, u₁⟩, h₁, hopen⟩ := exists_run (u.openCopy m cfg) h
  rw [run_bind_of_run hopen] at hw
  cases r with
  | error cause =>
    cases hw
    exact .inl ⟨cause, rfl⟩
  | ok at_ =>
    dsimp only at hw
    have hnote : (note (.copying u₁.path u₁.copy)).run h₁ =
      ((), h₁.noted (.copying u₁.path u₁.copy)) := rfl
    rw [run_bind_of_run hnote] at hw
    obtain ⟨r, h₂, happend⟩ :=
      exists_run (Host.append at_ (copyOf u₁.path content)) (h₁.noted (.copying u₁.path u₁.copy))
    rw [run_bind_of_run happend] at hw
    cases r with
    | ok _ => cases hw
    | error cause =>
      cases hw
      exact .inr ⟨cause, rfl⟩

/-- A scan fails with an error just when there is a fault that gives it. -/
theorem scan_error_iff (m : Machine) (cfg : Config) (u : CompilationUnit) (h : Host)
    (e : ScanError) : ((u.scan m cfg).run h).1.1 = .error e ↔ u.Fault m cfg h e := by
  constructor
  · intro herror
    cases hread : h.files.read m.cwd u.path with
    | error cause =>
      rw [Discovery.scan_of_unreadable hread] at herror
      cases herror
      exact .unreadable hread
    | ok content =>
      obtain ⟨signal?, s, h', hr⟩ := exists_reads cfg hread
      cases signal? with
      | some signal =>
        rw [run_scan_interrupted hr] at herror
        cases herror
        exact .interrupted hr
      | none =>
        by_cases hnil : s.diagnostics = []
        case neg =>
          rw [run_scan_reported hr hnil] at herror
          cases herror
          exact .reported hr (hr.reports.mp hnil)
        obtain ⟨⟨r, u'⟩, h'', hw⟩ :=
          exists_run (Scan.writeCopy m cfg content { s.unit with scanned := true }) h'
        rw [run_scan_clean hr hnil hw] at herror
        cases r with
        | ok _ => cases herror
        | error cause =>
          cases herror
          have hgood : ¬ u.BadFile m cfg h content := fun hbad => hr.reports.mpr hbad hnil
          have hkind : s.unit.kind = u.kind := hr.flagged.follows.kind
          have hpath : s.unit.path = u.path := hr.flagged.follows.path
          have hc : needsCopy content = true := by
            cases hc : needsCopy content with
            | true => rfl
            | false =>
              rw [run_writeCopy_of_not_needed hc] at hw
              cases hw
          cases hk : u.kind with
          | source => exact .unwritten hr hgood hk hc hw
          | header =>
            rw [run_writeCopy_header (u := { s.unit with scanned := true }) hc
              (hkind.trans hk)] at hw
            cases hw
            show u.Fault m cfg h (.unit (.headerNotCompiled s.unit.path))
            rw [hpath]
            exact .header hr hgood hk hc
  · intro hfault
    cases hfault with
    | unreadable hread => rw [Discovery.scan_of_unreadable hread]
    | interrupted hr => rw [run_scan_interrupted hr]
    | reported hr hbad => rw [run_scan_reported hr (hr.reports.mpr hbad)]
    | @header content s h' hr hgood hk hc =>
      have hnil : s.diagnostics = [] := hr.nil_of_good hgood
      have hw := run_writeCopy_header (u := { s.unit with scanned := true }) hc
        (hr.flagged.follows.kind.trans hk) m cfg h'
      rw [run_scan_clean hr hnil hw, ← hr.flagged.follows.path]
      rfl
    | @unwritten content s h' h'' e u' hr hgood hk hc hw =>
      have hnil : s.diagnostics = [] := hr.nil_of_good hgood
      rw [run_scan_clean hr hnil hw]
      rfl

/-- A scan that ends with an interrupt has seen it before a line was read. -/
theorem scan_interrupted {e : ScanError} {u' : CompilationUnit} {signal : Signal}
    (hscan : (u.scan m cfg).run h = ((.error e, u'), h'))
    (hsignal : e.interruptSignal? = some signal) :
    ∃ content s h₁, u.Reads m cfg h content (some signal) s h₁ ∧ u' = s.unit ∧
      e = .interrupted (.interrupted signal) ∧ h' = h₁.reported s.diagnostics := by
  have hfault : u.Fault m cfg h e := by
    rw [← scan_error_iff, hscan]
  cases hfault with
  | unreadable _ => cases hsignal
  | @interrupted content seen s h₁ hr =>
    rw [run_scan_interrupted hr] at hscan
    cases hscan
    cases hsignal
    exact ⟨content, s, h₁, hr, rfl, rfl, rfl⟩
  | reported _ _ => cases hsignal
  | header _ _ _ _ => cases hsignal
  | unwritten _ _ _ _ hw =>
    rcases writeCopy_error hw with ⟨cause, rfl⟩ | ⟨cause, rfl⟩
    · cases hsignal
    · cases hsignal

end CompilationUnit

end CxxScript

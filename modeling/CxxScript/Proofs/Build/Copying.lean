import CxxScript.Proofs.Build.Faults
import CxxScript.Proofs.Host.Ways
import CxxScript.Proofs.Source.Copying
import Mathlib.Data.List.Basic
import Mathlib.Logic.Relation

/-!
# What a scan writes

A scan that succeeds has written a copy just when a `#!` in the file begins a line, and the copy is
the file with two slashes before each such `#!` behind one line that names it: `scan_copies`. To
scan what stands in the copy behind that line as the content of the file comes to the same, and
writes nothing.
-/

set_option autoImplicit false

namespace CxxScript

open Host

/-- From some files to others by package queries alone. -/
def Package.Asked (m : Machine) (command : String) : Files → Files → Prop :=
  Relation.ReflTransGen fun fs fs' => ∃ requirement h, h.files = fs ∧
    Leads (flagsFor m command requirement) h fun _ h' => h'.files = fs'

/-- While a file is read nothing but package queries changes the files. -/
theorem askedFrame (m : Machine) (cfg : Config) :
    Scan.Frame m cfg fun h h' => Package.Asked m cfg.pkgConfig h.files h'.files where
  refl _ := .refl
  trans := .trans
  emit _ _ _ := .refl
  poll _ := .refl
  query requirement h := .single ⟨requirement, h, rfl, rfl⟩

/-! ## The copy -/

namespace Host

/-- Adding bytes to what stands at a location, as a change to the files. -/
def appending (at_ : Location) (bytes : Bytes) (fs : Files) : Except IoError (Unit × Files) :=
  (fs.append at_ bytes).map fun fs => ((), fs)

variable {h h' : Host} {at_ : Location} {bytes : Bytes} {r : Except IoError Unit}

/-- Adding bytes to a regular file changes the files alone. -/
theorem files_append_file {content : Bytes} {executable : Bool}
    (happend : (append at_ bytes).run h = (r, h'))
    (hget : h.files.get? at_ = some (.file content executable)) :
    h.files.append at_ bytes = .ok h'.files := by
  have hfiles : h.files.append at_ bytes =
      .ok (h.files.set at_ (.file (content ++ bytes) executable)) := by
    unfold Files.append
    rw [hget]
  have hstep : appending at_ bytes h.files =
      .ok ((), h.files.set at_ (.file (content ++ bytes) executable)) := by
    rw [appending, hfiles]
    rfl
  have hrun : (append at_ bytes).run h = (change (appending at_ bytes)).run h := by
    have hhost : (get : StateM Host Host).run h = (h, h) := rfl
    unfold append
    rw [run_bind_of_run hhost, hget]
    rfl
  rw [hrun, run_change_ok hstep] at happend
  cases happend
  exact hfiles

/-- Adding bytes to a device changes no file. -/
theorem files_append_device {d : Device} (happend : (append at_ bytes).run h = (r, h'))
    (hget : h.files.get? at_ = some (.device d)) : h'.files = h.files := by
  have hchange : Leads (change (appending at_ bytes)) h fun _ h' => h'.files = h.files := by
    cases hs : h.files.append at_ bytes with
    | error e =>
      have hstep : appending at_ bytes h.files = .error e := by
        rw [appending, hs]
        rfl
      rw [leads_of_run (run_change_error hstep)]
    | ok fs =>
      have hsame : fs = h.files := by
        unfold Files.append at hs
        rw [hget] at hs
        dsimp only at hs
        split at hs
        · cases hs
        · cases hs
          rfl
      have hstep : appending at_ bytes h.files = .ok ((), fs) := by
        rw [appending, hs]
        rfl
      rw [leads_of_run (run_change_ok hstep)]
      exact hsame
  have happended : Leads (append at_ bytes) h fun _ h' => h'.files = h.files := by
    unfold append
    rw [leads_bind, leads_get, hget]
    split
    · split <;> exact rfl
    · exact hchange
  rwa [leads_of_run happend] at happended

end Host

namespace CompilationUnit

/-- A unit with a place for its copy is for the same file. -/
theorem path_withCopyAt (u : CompilationUnit) (place : Placement) :
    (u.withCopyAt place).path = u.path := by
  unfold withCopyAt
  split <;> rfl

/-- The place of the copy adds at most the directory of the file to the private flags. -/
theorem flags_withCopyAt (u : CompilationUnit) (place : Placement) :
    (u.withCopyAt place).flags = u.flags ∧
      ((u.withCopyAt place).privateFlags = u.privateFlags ∨ (u.withCopyAt place).privateFlags =
        (u.pushPrivateFlags [s!"-iquote{u.directoryText}"]).2.privateFlags) := by
  unfold withCopyAt
  split
  · exact ⟨rfl, .inr rfl⟩
  · exact ⟨rfl, .inl rfl⟩

/-- A unit whose copy has been opened has been given a place for it, and the place leads to a
regular file without content or to a device. -/
theorem openCopy_opened {m : Machine} {cfg : Config} {u u' : CompilationUnit}
    {h h' : Host} {at_ : Location} (hopen : (u.openCopy m cfg).run h = ((.ok at_, u'), h')) :
    (∃ place, u' = u.withCopyAt place) ∧
      ((∃ executable, h'.files.find m.cwd u'.copy = .ok (at_, .file [] executable)) ∨
        ∃ d, h'.files.find m.cwd u'.copy = .ok (at_, .device d)) := by
  unfold openCopy at hopen
  split at hopen
  · cases hopen
  obtain ⟨r, h₁, hfind⟩ := exists_run (Placement.find m cfg.cacheRoot u.copy) h
  rw [run_bind_of_run hfind] at hopen
  cases r with
  | error cause => cases hopen
  | ok place =>
    dsimp only at hopen
    cases hc : h₁.files.create m.cwd (u.withCopyAt place).copy with
    | error cause =>
      have hcreate : (create m (u.withCopyAt place).copy).run h₁ = (.error cause, h₁) :=
        run_change_error hc
      rw [run_bind_of_run hcreate] at hopen
      cases hopen
    | ok made =>
      have hcreate : (create m (u.withCopyAt place).copy).run h₁ =
          (.ok made.1, { h₁ with files := made.2 }) := run_change_ok hc
      rw [run_bind_of_run hcreate] at hopen
      cases hopen
      exact ⟨⟨place, rfl⟩, Files.create_opened hc⟩

end CompilationUnit

namespace Scan

open Source

variable {m : Machine} {cfg : Config}

/-- A copy that has been written stands at its place. -/
theorem writeCopy_written {content : Bytes} {u u' : CompilationUnit} {h h' : Host}
    (hc : needsCopy content = true)
    (hw : (writeCopy m cfg content u).run h = ((.ok (), u'), h')) :
    (∃ place, u' = u.withCopyAt place) ∧
      h'.files.Holds m.cwd u'.copy (copyOf u'.path content) := by
  unfold writeCopy at hw
  rw [hc, Bool.not_true, if_neg Bool.false_ne_true] at hw
  obtain ⟨⟨r, u₁⟩, h₁, hopen⟩ := exists_run (u.openCopy m cfg) h
  rw [run_bind_of_run hopen] at hw
  cases r with
  | error cause => cases hw
  | ok at_ =>
    dsimp only at hw
    have hnote : (note (.copying u₁.path u₁.copy)).run h₁ =
      ((), h₁.noted (.copying u₁.path u₁.copy)) := rfl
    rw [run_bind_of_run hnote] at hw
    obtain ⟨r, h₂, happend⟩ :=
      exists_run (Host.append at_ (copyOf u₁.path content)) (h₁.noted (.copying u₁.path u₁.copy))
    rw [run_bind_of_run happend] at hw
    cases r with
    | error cause => cases hw
    | ok _ =>
      cases hw
      obtain ⟨hplace, hopened⟩ := CompilationUnit.openCopy_opened hopen
      refine ⟨hplace, ?_⟩
      rcases hopened with ⟨executable, hfile⟩ | ⟨d, hdevice⟩
      · have hget := Files.get?_of_find hfile (by simp)
        have happended := files_append_file happend hget
        have hread := Files.append_holds hfile happended
        rw [List.nil_append] at hread
        exact .inl hread
      · have hget := Files.get?_of_find hdevice (by simp)
        have hsame := files_append_device happend hget
        refine .inr ⟨at_, d, ?_⟩
        rw [hsame]
        exact hdevice

/-- Lines as a compiler can read them are read as the lines of the file are. -/
theorem readLines_defuse (index : Nat) (lines : List Bytes) (s : Scan) :
    readLines m cfg index (lines.map defuse) s = readLines m cfg index lines s := by
  induction lines generalizing index s with
  | nil => rfl
  | cons line rest ih =>
    rw [List.map_cons, readLines, readLines, readableLine_defuse]
    simp only [ih]

end Scan

/-! ## Scanning what stands in the copy -/

namespace CompilationUnit

open Source

variable {m : Machine} {cfg : Config} {u u' : CompilationUnit} {h h' : Host} {content : Bytes}
  {s : Scan}

/-- Scan some bytes as the content of a unit's file. -/
def scanOf (m : Machine) (cfg : Config) (content : Bytes) (u : CompilationUnit) :
    StateM Host (Except ScanError (List CompilationUnit) × CompilationUnit) := do
  note (.scanning u.path)
  finish m cfg content (← Scan.readLines m cfg 0 (rawLines content) { unit := u })

/-- The scan of some bytes goes on behind the reading of their lines. -/
theorem run_scanOf {signal? : Option Signal}
    (hlines : (Scan.readLines m cfg 0 (rawLines content) { unit := u }).run
      (h.noted (.scanning u.path)) = ((signal?, s), h')) :
    (u.scanOf m cfg content).run h = (finish m cfg content (signal?, s)).run h' := by
  have hnote : (note (.scanning u.path)).run h = ((), h.noted (.scanning u.path)) := rfl
  rw [scanOf, run_bind_of_run hnote, run_bind_of_run hlines]

/-- A scan of a file that can be read is a scan of its content. -/
theorem run_scan_eq (hread : h.files.read m.cwd u.path = .ok content) :
    (u.scan m cfg).run h = (u.scanOf m cfg content).run h := by
  obtain ⟨signal?, s, h', hr⟩ := exists_reads cfg hread
  rw [run_scan_of_reads hr, run_scanOf hr.lines]

/-- A scan of what stands in the copy reads what the scan of the file has read, and writes
nothing. -/
theorem run_scanOf_slashed (hr : u.Reads m cfg h content none s h') (hnil : s.diagnostics = []) :
    (u.scanOf m cfg (slashed [] content)).run h =
      ((.ok s.found, { s.unit with scanned := true }), h') := by
  have hlines : (Scan.readLines m cfg 0 (rawLines (slashed [] content)) { unit := u }).run
      (h.noted (.scanning u.path)) = ((none, s), h') := by
    rw [rawLines_slashed, Scan.readLines_defuse]
    exact hr.lines
  rw [run_scanOf hlines,
    run_finish_clean hnil (run_writeCopy_of_not_needed (needsCopy_slashed content) m cfg _ h')]
  rfl

/-- A scan that succeeds has read the file to its end with nothing to report, and its copy has been
written. -/
theorem reads_of_scan_ok {found : List CompilationUnit}
    (hread : h.files.read m.cwd u.path = .ok content)
    (hscan : (u.scan m cfg).run h = ((.ok found, u'), h')) :
    ∃ s h₁, u.Reads m cfg h content none s h₁ ∧ s.diagnostics = [] ∧ found = s.found ∧
      (Scan.writeCopy m cfg content { s.unit with scanned := true }).run h₁ =
        ((.ok (), u'), h') := by
  obtain ⟨signal?, s, h₁, hr⟩ := exists_reads cfg hread
  cases signal? with
  | some signal =>
    rw [run_scan_interrupted hr] at hscan
    cases hscan
  | none =>
    by_cases hnil : s.diagnostics = []
    case neg =>
      rw [run_scan_reported hr hnil] at hscan
      cases hscan
    case pos =>
      obtain ⟨⟨r, u₁⟩, h₂, hw⟩ :=
        exists_run (Scan.writeCopy m cfg content { s.unit with scanned := true }) h₁
      rw [run_scan_clean hr hnil hw] at hscan
      cases r with
      | error e => cases hscan
      | ok _ =>
        cases hscan
        exact ⟨s, h₁, hr, hnil, rfl, hw⟩

/-- While lines are read packages are asked for, and no file is changed otherwise. -/
theorem asked_of_lines {lines : List Bytes} {signal? : Option Signal}
    (hlines : (Scan.readLines m cfg 0 lines { unit := u }).run (h.noted (.scanning u.path)) =
      ((signal?, s), h')) : Package.Asked m cfg.pkgConfig h.files h'.files :=
  ((leads_of_run hlines _).mp (Scan.readLines_extends (askedFrame m cfg) 0 _ _ _)).host

/-- While a file is read packages are asked for, and no file is changed otherwise. -/
theorem Reads.asked {signal? : Option Signal} (hr : u.Reads m cfg h content signal? s h') :
    Package.Asked m cfg.pkgConfig h.files h'.files := asked_of_lines hr.lines

/-- What has been read into a unit leaves the choice between its copy and its file as it was. -/
theorem Flagged.processedPath (hf : u.Flagged u') :
    u'.copied = u.copied ∧ u'.processedPath = u.processedPath := by
  unfold Flagged at hf
  rw [hf]
  exact ⟨rfl, rfl⟩

/-- What a scan that succeeds from `h` to `h'` does about the copy of a unit with some content. -/
structure CopiesFile (m : Machine) (cfg : Config) (u u' : CompilationUnit) (h h' : Host)
    (content : Bytes) (found : List CompilationUnit) : Prop where
  /-- There is a copy when one was there or a `#!` in the file begins a line. -/
  copied : u'.copied = true ↔ u.copied = true ∨ HasInterpreterLine content
  /-- In the second case the copy holds the bytes of the file with two slashes before each such `#!`
  behind one line. -/
  written : HasInterpreterLine content →
    u'.processedPath = u'.copy ∧ h'.files.Holds m.cwd u'.copy
      (Text.Utf8.encode (lineMarker u.path) ++ slashed [] content)
  /-- Otherwise nothing is written. -/
  unwritten : ¬ HasInterpreterLine content →
    u'.processedPath = u.processedPath ∧ Package.Asked m cfg.pkgConfig h.files h'.files
  /-- On the line before the others stands the path of the file, escaped. -/
  quoted : ∃ quoted, Text.Utf8.encode (lineMarker u.path) =
      Text.Utf8.encode "#line 1 \"" ++ quoted ∧
    readQuoted quoted = some (Text.Utf8.encode u.path.text, [0x0A])
  /-- So each line of the file is the next one of the copy. -/
  lines : ∀ k, (rawLines (Text.Utf8.encode (lineMarker u.path) ++ slashed [] content))[k + 1]? =
    ((rawLines content)[k]?).map defuse
  /-- What stands behind that line reads as the content of the file. -/
  alike : ∀ s, Scan.readLines m cfg 0 (rawLines (slashed [] content)) s =
    Scan.readLines m cfg 0 (rawLines content) s
  /-- To scan that as the content of the file finds the same units and flags, and needs no copy. -/
  again : ∃ u₂ h₂, (u.scanOf m cfg (slashed [] content)).run h = ((.ok found, u₂), h₂) ∧
    u₂.processedPath = u.processedPath ∧ Package.Asked m cfg.pkgConfig h.files h₂.files ∧
    u'.flags = u₂.flags ∧ (u'.privateFlags = u₂.privateFlags ∨
      u'.privateFlags = (u₂.pushPrivateFlags [s!"-iquote{u.directoryText}"]).2.privateFlags)

/-- A scan that succeeds copies its file when it has to, and with it the place of each line. -/
theorem scan_copies (m : Machine) (cfg : Config) (u u' : CompilationUnit) (h h' : Host)
    (content : Bytes) (found : List CompilationUnit) (hline : '\n' ∉ u.path.text.toList)
    (hread : h.files.read m.cwd u.path = .ok content)
    (hscan : (u.scan m cfg).run h = ((.ok found, u'), h')) :
    CopiesFile m cfg u u' h h' content found := by
  obtain ⟨s, h₁, hr, hnil, rfl, hw⟩ := reads_of_scan_ok hread hscan
  have hpath : s.unit.path = u.path := hr.flagged.follows.path
  obtain ⟨hcopied, hprocessed⟩ := hr.flagged.processedPath
  have hbytes : Text.Utf8.encode (lineMarker u.path) ++ slashed [] content =
      copyOf u.path content := by
    rw [copyOf, flatMap_defuse]
  -- What the writing of the copy has made of the unit.
  have hwritten : needsCopy content = true →
      (∃ place, u' = { s.unit with scanned := true }.withCopyAt place) ∧
        h'.files.Holds m.cwd u'.copy (copyOf u'.path content) := fun hc =>
    Scan.writeCopy_written hc hw
  have hskipped : needsCopy content = false → u' = { s.unit with scanned := true } ∧ h' = h₁ := by
    intro hc
    rw [run_writeCopy_of_not_needed hc] at hw
    cases hw
    exact ⟨rfl, rfl⟩
  refine
    { copied := ?copied
      written := ?written
      unwritten := ?unwritten
      quoted := readQuoted_lineMarker hline
      lines := ?lines
      alike := ?alike
      again := ?again }
  case copied =>
    rw [← needsCopy_iff]
    cases hc : needsCopy content with
    | true =>
      obtain ⟨⟨place, rfl⟩, -⟩ := hwritten hc
      exact ⟨fun _ => .inr rfl, fun _ => copied_withCopyAt _ place⟩
    | false =>
      obtain ⟨rfl, -⟩ := hskipped hc
      simp [hcopied]
  case written =>
    rw [← needsCopy_iff]
    intro hc
    obtain ⟨⟨place, hplace⟩, hholds⟩ := hwritten hc
    have hpath' : u'.path = u.path := by
      rw [hplace, path_withCopyAt, ← hpath]
    have hcopied' : u'.copied = true := by
      rw [hplace, copied_withCopyAt]
    rw [hpath'] at hholds
    rw [processedPath, hcopied', hbytes]
    exact ⟨rfl, hholds⟩
  case unwritten =>
    rw [← needsCopy_iff, Bool.not_eq_true]
    intro hc
    obtain ⟨rfl, rfl⟩ := hskipped hc
    exact ⟨hprocessed, hr.asked⟩
  case lines =>
    intro k
    rw [hbytes, getElem?_rawLines_copyOf hline]
  case alike =>
    intro s
    rw [rawLines_slashed, Scan.readLines_defuse]
  case again =>
    refine ⟨_, h₁, run_scanOf_slashed hr hnil, hprocessed, hr.asked, ?_⟩
    have hdirectory : u.directoryText = s.unit.directoryText := by
      rw [directoryText, directoryText, hpath]
    cases hc : needsCopy content with
    | true =>
      obtain ⟨⟨place, rfl⟩, -⟩ := hwritten hc
      rw [hdirectory]
      exact flags_withCopyAt _ place
    | false =>
      obtain ⟨rfl, -⟩ := hskipped hc
      exact ⟨rfl, .inl rfl⟩

/-- A machine without programs. -/
def desk : Machine where
  cwd := ["w"]
  environment := []
  pid := 7
  time := 0
  accountHome := none
  execute _ _ := .error .noEntry

/-- The host of a script with a quote in its name, whose first line is for the system. -/
def memo : Host where
  files :=
    { entries := [
        (["w"], .directory),
        (["w", "a\"b.cpp"], .file (Text.Utf8.encode "\t#!/usr/bin/hbcxx\nint main();") false)] }

/-- The unit for that script. -/
def memoUnit : CompilationUnit := .ofPath desk memo .source ⟨"a\"b.cpp"⟩

/-- The copy of that script stands beside it, with two slashes and the escaped name. -/
theorem scan_copies_memo :
    '\n' ∉ memoUnit.path.text.toList ∧ memoUnit.copied = false ∧
      ∃ u' h', (memoUnit.scan desk { cacheRoot := ⟨"c"⟩ }).run memo = ((.ok [], u'), h') ∧
        u'.copied = true ∧ u'.copy = ⟨"a\"b-hbcxx-7.cpp"⟩ ∧ h'.files.Holds desk.cwd u'.copy
          (Text.Utf8.encode "#line 1 \"a\\\"b.cpp\"\n\t//#!/usr/bin/hbcxx\nint main();") := by
  have hline : '\n' ∉ memoUnit.path.text.toList := by decide +kernel
  have hread : memo.files.read desk.cwd memoUnit.path =
      .ok (Text.Utf8.encode "\t#!/usr/bin/hbcxx\nint main();") := by decide +kernel
  obtain ⟨⟨r, u'⟩, h', hrun⟩ :=
    exists_run (memoUnit.scan desk { cacheRoot := ⟨"c"⟩ }) memo
  have hok : ((memoUnit.scan desk { cacheRoot := ⟨"c"⟩ }).run memo).1.1 = .ok [] := by
    decide +kernel
  have hplace : ((memoUnit.scan desk { cacheRoot := ⟨"c"⟩ }).run memo).1.2.copy =
      ⟨"a\"b-hbcxx-7.cpp"⟩ := by
    decide +kernel
  rw [hrun] at hok hplace
  cases hok
  have hcopies := scan_copies _ _ _ _ _ _ _ _ hline hread hrun
  have hneeds : needsCopy (Text.Utf8.encode "\t#!/usr/bin/hbcxx\nint main();") = true := by
    decide +kernel
  have hbegins := (needsCopy_iff _).mp hneeds
  have hbytes : Text.Utf8.encode (lineMarker memoUnit.path) ++
      slashed [] (Text.Utf8.encode "\t#!/usr/bin/hbcxx\nint main();") =
      Text.Utf8.encode "#line 1 \"a\\\"b.cpp\"\n\t//#!/usr/bin/hbcxx\nint main();" := by
    decide +kernel
  have hholds := (hcopies.written hbegins).2
  rw [hbytes] at hholds
  exact ⟨hline, rfl, u', h', hrun, hcopies.copied.mpr (.inr hbegins), hplace, hholds⟩

end CompilationUnit

end CxxScript

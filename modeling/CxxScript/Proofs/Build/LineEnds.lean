import CxxScript.Proofs.Build.Requests
import CxxScript.Proofs.Build.Twins
import CxxScript.Proofs.Source.LineEnds

/-!
# Scanning with other line ends

A carriage return before each line feed of a file changes nothing about what its lines ask for,
`Scan.requestsOn_crlf`, when no flags end with an open quote or behind a backslash. So the lines are
read to the same end, `Scan.readLines_crlf`, and what follows the reading goes by what was read and
by whether a copy is needed: `CompilationUnit.finish_crlf`. The two scans of a unit, with the file
as it is and with the other line ends, come to the same, and so do the copies: `scan_crlf`.
-/

set_option autoImplicit false

namespace CxxScript

open Host

namespace Scan

open Source

variable {m : Machine} {cfg : Config}

/-! ## Lines -/

/-- A carriage return at the end of a line asks for nothing and changes no request. -/
theorem requestsOn_return {line : List Char} (index : Nat)
    (hflags : ∀ text, behindMarker? line = some text → text.head? = some '-' →
      (Text.Words.scan {} text).AtRest) :
    requestsOn index (line ++ ['\r']) = requestsOn index line := by
  have hdirective : ((directiveOn? index (line ++ ['\r'])).bind fun found =>
      found.2.request? found.1) =
      (directiveOn? index line).bind fun found => found.2.request? found.1 := by
    rw [directiveOn?, directiveOn?, findMarker?_return]
    cases hplace : findMarker? line with
    | none => rfl
    | some place =>
      have hroom := (findMarker?_eq_some_iff.mp hplace).1.length_le
      rw [Option.map_some, Option.map_some, Option.bind_some, Option.bind_some,
        List.drop_append_of_le_length hroom]
      generalize hrest : line.drop (place + marker.length) = rest
      have hbehind : behindMarker? line = some (rest.dropWhile Text.isGap) := by
        rw [behindMarker?, hplace, ← hrest]
        rfl
      by_cases hdash : (rest.dropWhile Text.isGap).head? = some '-'
      · have hdash' : ((rest ++ ['\r']).dropWhile Text.isGap).head? = some '-' := by
          rw [Text.dropWhile_append_cons (by decide), List.head?_append, hdash, Option.some_or]
        rw [Directive.parse_flags hdash, Directive.parse_flags hdash',
          Text.dropWhile_append_cons (by decide)]
        show some (Request.push _) = some (Request.push _)
        rw [split_return (hflags _ hbehind hdash)]
      · rw [Directive.parse_return hdash]
  rw [requestsOn, requestsOn, hdirective, Include.ofLine?_return]

/-- A line asks for the same with a carriage return at its end. -/
theorem requestsOn_crlf {content line : Bytes} (hflags : FlagsAtRest content)
    (hline : line ∈ rawLines content) (index : Nat) :
    requestsOn index (readableLine (crlf line)) = requestsOn index (readableLine line) := by
  rcases readableLine_crlf hline with hsame | hreturn
  · rw [hsame]
  · rw [hreturn]
    exact requestsOn_return index (hflags line hline)

/-- Lines that ask for the same are read to the same end. -/
theorem readLine_of_requests {index : Nat} {line line' : List Char}
    (h : requestsOn index line' = requestsOn index line) (s : Scan) :
    s.readLine m cfg index line' = s.readLine m cfg index line := by
  funext k
  obtain ⟨as, k', hasked⟩ := exists_run (askAll m cfg s.unit.path (requestsOn index line)) k
  have hread := run_readLine hasked
  rw [← h] at hasked
  have hread' := run_readLine hasked
  rw [h] at hread'
  exact hread'.trans hread.symm

/-- Lines with carriage returns at their ends are read as those without. -/
theorem readLines_crlf {content : Bytes} (hflags : FlagsAtRest content) (index : Nat) (s : Scan) :
    readLines m cfg index (rawLines (crlf content)) s =
      readLines m cfg index (rawLines content) s := by
  have hlines : ∀ lines ⊆ rawLines content, ∀ index s,
      readLines m cfg index (lines.map crlf) s = readLines m cfg index lines s := by
    intro lines
    induction lines with
    | nil => intros; rfl
    | cons line rest ih =>
      intro hsub index s
      obtain ⟨hline, hrest⟩ := List.cons_subset.mp hsub
      rw [List.map_cons, readLines, readLines]
      simp only [readLine_of_requests (requestsOn_crlf hflags hline index), ih hrest]
  rw [rawLines_crlf]
  exact hlines _ (List.Subset.refl _) index s

/-- Reading lines reports nothing yet. -/
theorem reports_readLines (index : Nat) (lines : List Bytes) (s : Scan) (h : Host) :
    Leads (readLines m cfg index lines s) h fun _ h' => h'.reports = h.reports := by
  obtain ⟨⟨signal?, answers⟩, h', hheard⟩ :=
    exists_run (hearLines m cfg s.unit.path index lines) h
  rw [leads_of_run (run_readLines hheard)]
  exact reports_of_wrote ((leads_of_run hheard _).mp (wrote_hearLines s.unit.path index lines h))

end Scan

/-! ## Two scans -/

namespace Source

/-- At the location of a file contents may differ, by carriage returns before the line feeds. -/
def Recoded (own at_ : Location) (content content' : Bytes) : Prop :=
  at_ = own ∧ content' = crlf content

/-- The copies of a file differ, behind the line that names the file, as its contents do. -/
def CopyRecoded (p : Path) (content copy copy' : Bytes) : Prop :=
  HasInterpreterLine content ∧ copy = Text.Utf8.encode (lineMarker p) ++ slashed [] content ∧
    copy' = Text.Utf8.encode (lineMarker p) ++ crlf (slashed [] content)

end Source

namespace CompilationUnit

open Source Scan

/-- What has become of the copies in two scans that have come to the same, from `h` to `k` and from
`h'` to `k'`. -/
inductive CopiesRecoded (m : Machine) (cfg : Config) (p : Path) (content : Bytes)
    (outcome : Except ScanError (List CompilationUnit)) (u : CompilationUnit) (h k h' k' : Host) :
    Prop where
  | neither (hnone : HasInterpreterLine content → ∃ e, outcome = .error e)
      (hasked : Package.Asked m cfg.pkgConfig h.files k.files)
      (hasked' : Package.Asked m cfg.pkgConfig h'.files k'.files)
  | failed {e : ScanError} (hneeds : HasInterpreterLine content) (houtcome : outcome = .error e)
      (hcause : (∃ cause, e = .unit cause) ∨ ∃ cause, e = .write u.copy cause)
  | both {found : List CompilationUnit} (hneeds : HasInterpreterLine content)
      (houtcome : outcome = .ok found) (hplace : u.processedPath = u.copy)
      (hheld : k.files.Holds m.cwd u.copy
        (Text.Utf8.encode (lineMarker p) ++ slashed [] content))
      (hheld' : k'.files.Holds m.cwd u.copy
        (Text.Utf8.encode (lineMarker p) ++ crlf (slashed [] content)))

/-- Two scans of a unit have come to the same, from `h` with some content and from `h'` with
carriage returns in it. Contents may differ in the end where they did before, by `R`, and where the
copies are. -/
structure SameScan (m : Machine) (cfg : Config) (u : CompilationUnit) (content : Bytes)
    (R : Location → Bytes → Bytes → Prop) (h h' : Host)
    (r r' : (Except ScanError (List CompilationUnit) × CompilationUnit) × Host) : Prop where
  outcome : r'.1.1 = r.1.1
  unit : r'.1.2 = r.1.2
  reports : r'.2.reports = r.2.reports
  hosts : r.2.Alike (fun at_ c c' => R at_ c c' ∨ CopyRecoded u.path content c c') r'.2
  copies : CopiesRecoded m cfg u.path content r.1.1 r.1.2 h r.2 h' r'.2

variable {m : Machine} {cfg : Config} {u : CompilationUnit} {content : Bytes} {h h' k k' : Host}
  {R : Location → Bytes → Bytes → Prop} {s : Scan}

/-- Writing the copies of a file with either line ends. -/
theorem writeCopy_crlf (halike : Alike R k k') (hreports : k'.reports = k.reports)
    {v : CompilationUnit} (hpath : v.path = u.path)
    (hasked : Package.Asked m cfg.pkgConfig h.files k.files)
    (hasked' : Package.Asked m cfg.pkgConfig h'.files k'.files)
    {r r' : Except ScanError Unit} {u₁ u₁' : CompilationUnit} {j j' : Host}
    (hw : (Scan.writeCopy m cfg content v).run k = ((r, u₁), j))
    (hw' : (Scan.writeCopy m cfg (crlf content) v).run k' = ((r', u₁'), j'))
    (found : List CompilationUnit) :
    SameScan m cfg u content R h h' ((r.map fun _ => found, u₁), j)
      ((r'.map fun _ => found, u₁'), j') := by
  have hneed := needsCopy_crlf content
  have hcopy := copyOf_eq u.path content
  have hcopy' := copyOf_crlf u.path content
  have hloose : Alike (fun at_ c c' => R at_ c c' ∨ CopyRecoded u.path content c c') k k' :=
    halike.mono fun _ _ _ => .inl
  obtain ⟨⟨hsame, htwin⟩, hj⟩ := (agree_of_run hw hw' _).mp
    (Scan.agree_writeCopy hloose (.refl False v) hneed hw fun hneeds _ _ at_ _ _ executable => by
      rw [hpath, hcopy, hcopy']
      exact .file executable (.inr ⟨(needsCopy_iff content).mp hneeds, rfl, rfl⟩))
  obtain rfl : r' = r := hsame
  obtain rfl : u₁' = u₁ := htwin.unconcerned not_false
  have hreported := reports_of_wrote ((leads_of_run hw _).mp (wrote_writeCopy _ v k))
  have hreported' := reports_of_wrote ((leads_of_run hw' _).mp (wrote_writeCopy _ v k'))
  refine ⟨rfl, rfl, by rw [hreported, hreported', hreports], hj, ?_⟩
  cases hneeds : needsCopy content with
  | false =>
    rw [run_writeCopy_of_not_needed hneeds] at hw
    rw [run_writeCopy_of_not_needed (hneed.trans hneeds)] at hw'
    cases hw
    cases hw'
    refine .neither (fun hhas => ?_) hasked hasked'
    rw [(needsCopy_iff content).mpr hhas] at hneeds
    cases hneeds
  | true =>
    have hhas := (needsCopy_iff content).mp hneeds
    cases r' with
    | error e => exact .failed hhas rfl (writeCopy_error hw)
    | ok _ =>
      obtain ⟨⟨place, hplace⟩, hheld⟩ := Scan.writeCopy_written hneeds hw
      have hheld' := (Scan.writeCopy_written (hneed.trans hneeds) hw').2
      have hpath' : u₁'.path = u.path := by rw [hplace, path_withCopyAt, hpath]
      rw [hpath', hcopy] at hheld
      rw [hpath', hcopy'] at hheld'
      refine .both hhas rfl ?_ hheld hheld'
      rw [processedPath, hplace, copied_withCopyAt]
      rfl

/-- What follows the reading of a file with either line ends. -/
theorem finish_crlf (halike : Alike R k k') (hreports : k'.reports = k.reports)
    (hpath : s.unit.path = u.path) (hasked : Package.Asked m cfg.pkgConfig h.files k.files)
    (hasked' : Package.Asked m cfg.pkgConfig h'.files k'.files) (signal? : Option Signal) :
    SameScan m cfg u content R h h' ((finish m cfg content (signal?, s)).run k)
      ((finish m cfg (crlf content) (signal?, s)).run k') := by
  have hreported : (k'.reported s.diagnostics).reports = (k.reported s.diagnostics).reports := by
    rw [reports_reported, reports_reported, hreports]
  have hloose : Alike (fun at_ c c' => R at_ c c' ∨ CopyRecoded u.path content c c')
      (k.reported s.diagnostics) (k'.reported s.diagnostics) :=
    (halike.mono fun _ _ _ => .inl).withEvents _ _
  cases signal? with
  | some signal => exact ⟨rfl, rfl, hreported, hloose, .neither (fun _ => ⟨_, rfl⟩) hasked hasked'⟩
  | none =>
    by_cases hnil : s.diagnostics = []
    case neg =>
      rw [run_finish_reported m cfg content k hnil, run_finish_reported m cfg _ k' hnil]
      exact ⟨rfl, rfl, hreported, hloose, .neither (fun _ => ⟨_, rfl⟩) hasked hasked'⟩
    case pos =>
      obtain ⟨⟨r, u₁⟩, j, hw⟩ :=
        exists_run (Scan.writeCopy m cfg content { s.unit with scanned := true }) k
      obtain ⟨⟨r', u₁'⟩, j', hw'⟩ :=
        exists_run (Scan.writeCopy m cfg (crlf content) { s.unit with scanned := true }) k'
      rw [run_finish_clean hnil hw, run_finish_clean hnil hw']
      exact writeCopy_crlf (v := { s.unit with scanned := true }) halike hreports hpath hasked
        hasked' hw hw' s.found

/-- Scanning some bytes with either line ends. -/
theorem scanOf_crlf (hflags : FlagsAtRest content) (h : Host) :
    SameScan m cfg u content (fun _ _ _ => False) h h ((u.scanOf m cfg content).run h)
      ((u.scanOf m cfg (crlf content)).run h) := by
  obtain ⟨⟨signal?, s⟩, k, hlines⟩ := exists_run
    (Scan.readLines m cfg 0 (rawLines content) { unit := u }) (h.noted (.scanning u.path))
  have hasked := asked_of_lines hlines
  have hpath := (flagged_of_lines hlines).follows.path
  rw [run_scanOf hlines]
  rw [← readLines_crlf hflags] at hlines
  rw [run_scanOf hlines]
  exact finish_crlf ⟨Files.Alike.refl _ _, rfl, rfl⟩ rfl hpath hasked hasked signal?

/-- Scanning a file with either line ends, when no package query looks at them. -/
theorem scan_recoded (hflags : FlagsAtRest content) {own : Location} {executable : Bool}
    (hfind : h.files.find m.cwd u.path = .ok (own, .file content executable))
    (hm : m.Overlooks (Recoded own) (Package.IsQuestion cfg.pkgConfig))
    (hrecoded : h' = { h with files := h.files.set own (.file (crlf content) executable) }) :
    SameScan m cfg u content (Recoded own) h h' ((u.scan m cfg).run h)
      ((u.scan m cfg).run h') := by
  have hget : h.files.get? own = some (.file content executable) :=
    Files.get?_of_find hfind (by simp)
  have halike : Alike (Recoded own) h h' := by
    rw [hrecoded]
    exact ⟨Files.alike_set hget (.file executable ⟨rfl, rfl⟩), rfl, rfl⟩
  have hread : h.files.read m.cwd u.path = .ok content := by rw [Files.read, hfind]
  have hread' : h'.files.read m.cwd u.path = .ok (crlf content) := by
    have hold : ∀ e, h.files.get? own = some e → e.isFile = true := by
      intro e he
      cases hget.symm.trans he
      rfl
    have hset : (h.files.set own (.file (crlf content) executable)).find m.cwd u.path =
        .ok (own, .file (crlf content) executable) :=
      @Files.find_set h.files m.cwd .target u.path (.present own (.file content executable))
        (.file (crlf content) executable) (.inl rfl) (Files.locate_of_find hfind)
        (fun at_ heq => by cases heq) hold rfl
    have hfiles : h'.files = h.files.set own (.file (crlf content) executable) := by rw [hrecoded]
    rw [Files.read, hfiles, hset]
  have hnoted : Alike (Recoded own) (h.noted (.scanning u.path)) (h'.noted (.scanning u.path)) :=
    halike.withEvents _ _
  obtain ⟨⟨signal?, s⟩, k, hlines⟩ := exists_run
    (Scan.readLines m cfg 0 (rawLines content) { unit := u }) (h.noted (.scanning u.path))
  obtain ⟨⟨signal', s'⟩, k', hlines'⟩ := exists_run
    (Scan.readLines m cfg 0 (rawLines content) { unit := u }) (h'.noted (.scanning u.path))
  obtain ⟨⟨hsignal, htwin⟩, hk⟩ := (agree_of_run hlines hlines' _).mp
    (Scan.agree_readLines hnoted hm ⟨.refl False u, rfl, rfl⟩
      (List.forall₂_same.mpr fun _ _ => .inl rfl) 0)
  obtain rfl : signal' = signal? := hsignal
  obtain rfl : s' = s := htwin.eq
  have hpath := (flagged_of_lines hlines).follows.path
  have hasked := asked_of_lines hlines
  have hasked' := asked_of_lines hlines'
  have hreports : k'.reports = k.reports := by
    have hbegun : ∀ h : Host, (h.noted (.scanning u.path)).reports = h.reports := fun h =>
      reports_of_wrote (.single rfl rfl)
    rw [(leads_of_run hlines _).mp (Scan.reports_readLines 0 _ _ _),
      (leads_of_run hlines' _).mp (Scan.reports_readLines 0 _ _ _), hbegun, hbegun, hrecoded]
    rfl
  rw [run_scan_eq hread, run_scan_eq hread', run_scanOf hlines]
  rw [← readLines_crlf hflags] at hlines'
  rw [run_scanOf hlines']
  exact finish_crlf hk hreports hpath hasked hasked' signal'

/-- Where no flags end with an open quote or behind a backslash that takes what follows, a carriage
return before each line feed changes nothing that comes of a scan: not of some bytes, and not of the
file that holds them when no package query looks at its line ends. -/
theorem scan_line_ends (m : Machine) (cfg : Config) (u : CompilationUnit) (content : Bytes)
    (hflags : FlagsAtRest content) :
    (∀ h text, h.files.read m.cwd u.path = .ok text →
      (u.scan m cfg).run h = (u.scanOf m cfg text).run h) ∧
    (∀ h, SameScan m cfg u content (fun _ _ _ => False) h h ((u.scanOf m cfg content).run h)
      ((u.scanOf m cfg (crlf content)).run h)) ∧
    ∀ h h' own executable,
      h.files.find m.cwd u.path = .ok (own, .file content executable) →
      h' = { h with files := h.files.set own (.file (crlf content) executable) } →
      m.Overlooks (Recoded own) (Package.IsQuestion cfg.pkgConfig) →
      SameScan m cfg u content (Recoded own) h h' ((u.scan m cfg).run h)
        ((u.scan m cfg).run h') :=
  ⟨fun _ _ => run_scan_eq, scanOf_crlf hflags, fun _ _ _ _ hfind hrecoded hm =>
    scan_recoded hflags hfind hm hrecoded⟩

/-- A machine on which every package is there, with one library. -/
def library : Machine where
  cwd := ["w"]
  environment := [("PATH", "/bin")]
  pid := 7
  time := 0
  accountHome := none
  execute _ fs :=
    .ok { status := .exited 0, files := fs, written := [(.output, Text.Utf8.encode "-lz\n")] }

/-- The lines of a script, with a line end. -/
def ledgerLines (ending : String) : String :=
  "#! -O2 -D'A B'" ++ ending ++ "//#! private: -g" ++ ending ++
    "#include \"b.h\" //#! requires: zlib" ++ ending

/-- A script whose first line is for the system and has flags. -/
def ledgerText : Bytes := Text.Utf8.encode (ledgerLines "\n")

/-- The host of that script. -/
def ledger : Host where
  files :=
    { entries := [
        (["w"], .directory), (["bin"], .directory), (["bin", "pkg-config"], .file [] true),
        (["w", "a.cpp"], .file ledgerText true), (["w", "b.cpp"], .file [] false)] }

/-- The unit for that script. -/
def ledgerUnit : CompilationUnit := .ofPath library ledger .source ⟨"a.cpp"⟩

/-- Its scan comes to the same with either line ends, and the copies differ in them. -/
theorem scan_line_ends_ledger :
    FlagsAtRest ledgerText ∧
      library.Overlooks (Recoded ["w", "a.cpp"]) (Package.IsQuestion "pkg-config") ∧
      ∃ found u' k k', (ledgerUnit.scan library { cacheRoot := ⟨"c"⟩ }).run ledger =
          ((.ok found, u'), k) ∧
        (ledgerUnit.scan library { cacheRoot := ⟨"c"⟩ }).run
          { ledger with
            files := ledger.files.set ["w", "a.cpp"] (.file (crlf ledgerText) true) } =
          ((.ok found, u'), k') ∧
        found.map (·.path.text) = ["b.cpp"] ∧ u'.flags = ["-O2", "-DA B", "-lz"] ∧
        u'.privateFlags = ["-g"] ∧
        k.files.Holds library.cwd u'.copy
          (Text.Utf8.encode ("#line 1 \"a.cpp\"\n//" ++ ledgerLines "\n")) ∧
        k'.files.Holds library.cwd u'.copy
          (Text.Utf8.encode ("#line 1 \"a.cpp\"\n//" ++ ledgerLines "\r\n")) := by
  have hflags : FlagsAtRest ledgerText := by decide +kernel
  have hm : library.Overlooks (Recoded ["w", "a.cpp"]) (Package.IsQuestion "pkg-config") :=
    fun _ _ _ _ _ _ halike => .ok ⟨rfl, halike, rfl, rfl⟩
  have hfind : ledger.files.find library.cwd ledgerUnit.path =
      .ok (["w", "a.cpp"], .file ledgerText true) := by decide +kernel
  obtain ⟨-, -, hfile⟩ := scan_line_ends library { cacheRoot := ⟨"c"⟩ } ledgerUnit ledgerText hflags
  have hsame := hfile ledger _ _ _ hfind rfl hm
  have hread : (((ledgerUnit.scan library { cacheRoot := ⟨"c"⟩ }).run ledger).1.1.toOption.map
        fun found => found.map (·.path.text),
      ((ledgerUnit.scan library { cacheRoot := ⟨"c"⟩ }).run ledger).1.2.flags,
      ((ledgerUnit.scan library { cacheRoot := ⟨"c"⟩ }).run ledger).1.2.privateFlags) =
      (some ["b.cpp"], ["-O2", "-DA B", "-lz"], ["-g"]) := by decide +kernel
  have hneeds : HasInterpreterLine ledgerText := (needsCopy_iff _).mp (by decide +kernel)
  obtain ⟨⟨outcome, u'⟩, k, hrun⟩ :=
    exists_run (ledgerUnit.scan library { cacheRoot := ⟨"c"⟩ }) ledger
  obtain ⟨⟨outcome', u''⟩, k', hrun'⟩ := exists_run (ledgerUnit.scan library { cacheRoot := ⟨"c"⟩ })
    { ledger with files := ledger.files.set ["w", "a.cpp"] (.file (crlf ledgerText) true) }
  rw [hrun] at hsame hread
  rw [hrun'] at hsame
  obtain ⟨houtcome, hunit, -, -, hcopies⟩ := hsame
  obtain rfl : outcome' = outcome := houtcome
  obtain rfl : u'' = u' := hunit
  obtain ⟨hfound, hpublic, hprivate⟩ := Prod.mk.inj hread |>.imp id Prod.mk.inj
  cases outcome' with
  | error e => cases hfound
  | ok found =>
  refine ⟨hflags, hm, found, u'', k, k', hrun, hrun', Option.some.inj hfound, hpublic, hprivate, ?_⟩
  cases hcopies with
  | neither hnone _ _ =>
    obtain ⟨e, he⟩ := hnone hneeds
    cases he
  | failed _ herror _ => cases herror
  | both _ _ _ hheld hheld' =>
    have hbody : Text.Utf8.encode (lineMarker ledgerUnit.path) ++ slashed [] ledgerText =
        Text.Utf8.encode ("#line 1 \"a.cpp\"\n//" ++ ledgerLines "\n") := by decide +kernel
    have hbody' : Text.Utf8.encode (lineMarker ledgerUnit.path) ++ crlf (slashed [] ledgerText) =
        Text.Utf8.encode ("#line 1 \"a.cpp\"\n//" ++ ledgerLines "\r\n") := by decide +kernel
    rw [hbody] at hheld
    rw [hbody'] at hheld'
    exact ⟨hheld, hheld'⟩

end CompilationUnit

end CxxScript

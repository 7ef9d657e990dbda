import CxxScript.Proofs.Build.Retrying
import CxxScript.Proofs.Build.Running

/-!
# Where a compiler that is asked for ends up

A pseudo-flag asks for a compiler. A toolset takes it out wherever flags are pushed, so it is never
among the flags that the commands of a build share, `Toolset.Clean.calls`. There are two ways in
which it gets into a command all the same. The private flags of a unit are not pushed to the
toolset, and what a `private:` line of its file says stands in its compile command as it is. And
what names the compiler is split into words, all of which begin every command, whatever they are,
`Toolset.Choice.override_iff`. Names of files apart there is no third way: `overrides_traced`.
-/

set_option autoImplicit false

namespace CxxScript

open Host

variable {m : Machine} {cfg : Config}

/-! ## Private flags -/

namespace Source

/-- The private flags that a directive asks for. -/
def Directive.privateWords : Directive → List String
  | .keyValue "private" value => Text.Words.split value
  | _ => []

/-- The private flags that the directive on a line asks for. -/
def privateOn (line : List Char) : List String :=
  (Scan.directiveOn? 0 line).elim [] fun d => d.2.privateWords

end Source

namespace Scan

open Source

/-- Following a directive pushes the private flags it asks for. -/
theorem apply_private (position : Position) (d : Directive) (s : Scan) (h : Host) :
    Leads (s.apply m cfg position d) h fun s' _ => s'.unit.privateFlags =
      (Flags.pushUnique s.unit.privateFlags d.privateWords).1 := by
  unfold apply
  split
  · exact rfl
  · exact rfl
  · exact rfl
  · exact rfl
  · refine Leads.skip fun r h' => ?_
    cases r with
    | ok flags => exact rfl
    | error e => exact rfl
  · split
    · refine Leads.skip fun _ h' => ?_
      rw [leads_bind, leads_get]
      exact congrArg CompilationUnit.privateFlags (unit_refer _ _)
    · exact rfl
  · next name value hcxx hprivate hrequires hsource =>
    have hnone : (Directive.keyValue name value).privateWords = [] := by
      unfold Directive.privateWords
      split
      · next heq =>
        cases heq
        exact absurd rfl hprivate
      · rfl
    rw [hnone]
    exact rfl
  · exact rfl

/-- Following an include pushes no private flags. -/
theorem follow_private (index : Nat) (i : Include) (s : Scan) (h : Host) :
    Leads (s.follow m cfg index i) h fun s' _ => s'.unit.privateFlags = s.unit.privateFlags :=
  follow_keeps (fun s u => congrArg CompilationUnit.privateFlags (unit_refer s u))
    (fun _ _ => rfl) index i s h

/-- Reading a line pushes the private flags that its directive asks for. -/
theorem readLine_private (index : Nat) (line : List Char) (s : Scan) (h : Host) :
    Leads (s.readLine m cfg index line) h fun s' _ => s'.unit.privateFlags =
      (Flags.pushUnique s.unit.privateFlags (privateOn line)).1 := by
  -- At which line a directive stands makes no difference to what it asks for.
  refine readLine_leads (fun hd => ?_) (fun position d hd => ?_) fun i s' h' hs => ?_
  · have hmarker : findMarker? line = none := Option.map_eq_none_iff.mp hd
    rw [privateOn, directiveOn?, hmarker]
    rfl
  · obtain ⟨place, hmarker, hplace⟩ := Option.map_eq_some_iff.mp hd
    cases hplace
    rw [privateOn, directiveOn?, hmarker]
    exact apply_private _ _ s h
  · exact (follow_private index i s' h').mono fun _ _ hs' => hs'.trans hs

/-- Lines that are all read push the private flags that their directives ask for. -/
theorem readLines_private {index : Nat} {lines : List Bytes} {s s' : Scan} {h h' : Host}
    (hr : (readLines m cfg index lines s).run h = ((none, s'), h')) (flag : String) :
    flag ∈ s'.unit.privateFlags ↔ flag ∈ s.unit.privateFlags ∨
      ∃ line ∈ lines, flag ∈ privateOn (readableLine line) := by
  induction lines generalizing index s h with
  | nil =>
    cases hr
    simp
  | cons line rest ih =>
    obtain ⟨signal?, h₁, hpoll⟩ := exists_run (Host.poll m) h
    cases signal? with
    | some signal =>
      rw [run_readLines_interrupted hpoll] at hr
      cases hr
    | none =>
      obtain ⟨s₁, h₂, hline⟩ := exists_run (s.readLine m cfg index (readableLine line)) h₁
      rw [run_readLines_cons hpoll hline] at hr
      have hfirst : s₁.unit.privateFlags =
          (Flags.pushUnique s.unit.privateFlags (privateOn (readableLine line))).1 :=
        (leads_of_run hline _).mp (readLine_private index (readableLine line) s h₁)
      rw [ih hr, hfirst, Flags.mem_pushUnique, or_assoc, List.exists_mem_cons_iff]

end Scan

/-! ## Flags that ask for a compiler -/

/-- Whether a flag is the pseudo-flag by which a compiler is asked for. -/
def IsOverride (flag : String) : Prop := ∃ compiler, flag = compilerFlag ++ compiler

/-- A pseudo-flag is one by which a toolset is asked for a compiler. -/
theorem isOverride_iff {flag : String} :
    IsOverride flag ↔ (Toolset.askedBy? flag).isSome = true := by
  rw [Option.isSome_iff_exists]
  exact exists_congr fun compiler => Toolset.askedBy?_eq_some_iff.symm

namespace CompilationUnit

open Source

/-- The directory of a moved unit is not asked for as a compiler. -/
theorem mem_privateFlags_withCopyAt (u : CompilationUnit) (place : Placement) {flag : String}
    (hflag : IsOverride flag) :
    flag ∈ (u.withCopyAt place).privateFlags ↔ flag ∈ u.privateFlags := by
  unfold withCopyAt
  split
  · have hdirectory : flag ∉ [s!"-iquote{u.directoryText}"] := by
      rw [List.mem_singleton]
      obtain ⟨compiler, rfl⟩ := hflag
      intro heq
      have hchars : (compilerFlag ++ compiler).toList = ("-iquote" ++ u.directoryText).toList :=
        congrArg String.toList heq
      simp [compilerFlag] at hchars
    exact Flags.mem_pushUnique.trans (or_iff_left hdirectory)
  · exact Iff.rfl

/-- Opening the copy of a unit asks for no compiler. -/
theorem openCopy_private (u : CompilationUnit) (h : Host) {flag : String}
    (hflag : IsOverride flag) : Leads (u.openCopy m cfg) h fun r _ =>
      (flag ∈ r.2.privateFlags ↔ flag ∈ u.privateFlags) := by
  unfold openCopy
  split
  · exact Iff.rfl
  · refine Leads.skip fun r h₁ => ?_
    cases r with
    | error cause => exact Iff.rfl
    | ok place => exact mem_privateFlags_withCopyAt u place hflag

/-- Writing the copy of a unit asks for no compiler. -/
theorem writeCopy_private (content : Bytes) (u : CompilationUnit) (h : Host) {flag : String}
    (hflag : IsOverride flag) : Leads (Scan.writeCopy m cfg content u) h fun r _ =>
      (flag ∈ r.2.privateFlags ↔ flag ∈ u.privateFlags) := by
  unfold Scan.writeCopy
  split
  · exact Iff.rfl
  · refine Leads.bind (openCopy_private u h hflag) fun r h₁ hr => ?_
    obtain ⟨r, u₁⟩ := r
    cases r with
    | error cause => exact hr
    | ok at_ => exact Leads.skip fun _ _ => Leads.skip fun _ _ => hr

end CompilationUnit

namespace Discovery

open Source

/-- The pseudo-flags that a visit makes private flags of its unit are those that the file asks for
behind `private:`. -/
def Visit.Overrides (m : Machine) (v : Visit) : Prop :=
  ∃ content, v.start.files.read m.cwd v.unit.path = .ok content ∧ ∀ flag, IsOverride flag →
    (flag ∈ v.result.privateFlags ↔ flag ∈ v.unit.privateFlags ∨
      ∃ line ∈ rawLines content, flag ∈ privateOn (readableLine line))

/-- A visit that goes well makes those pseudo-flags private that the file asks for. -/
theorem Visit.Runs.overrides {v : Visit} (hv : v.Runs m cfg) (ho : v.outcome.isOk = true) :
    v.Overrides m := by
  obtain ⟨content, hread⟩ := hv.read ho
  obtain ⟨signal?, s, h', hr⟩ := CompilationUnit.exists_reads (u := v.unit) cfg hread
  refine ⟨content, hread, fun flag hflag => ?_⟩
  cases signal? with
  | some signal =>
    have heq := (CompilationUnit.run_scan_interrupted hr).symm.trans hv
    have houtcome : v.outcome = .error _ := (congrArg (fun r => r.1.1) heq).symm
    rw [houtcome] at ho
    cases ho
  | none =>
    by_cases hnil : s.diagnostics = []
    · obtain ⟨⟨r, u'⟩, h'', hw⟩ :=
        exists_run (Scan.writeCopy m cfg content { s.unit with scanned := true }) h'
      have heq := (CompilationUnit.run_scan_clean hr hnil hw).symm.trans hv
      have hresult : v.result = u' := (congrArg (fun r => r.1.2) heq).symm
      have hcopied : flag ∈ u'.privateFlags ↔ flag ∈ s.unit.privateFlags :=
        (leads_of_run hw _).mp (CompilationUnit.writeCopy_private content _ h' hflag)
      rw [hresult, hcopied, Scan.readLines_private hr.lines flag]
    · have heq := (CompilationUnit.run_scan_reported hr hnil).symm.trans hv
      have houtcome : v.outcome = .error _ := (congrArg (fun r => r.1.1) heq).symm
      rw [houtcome] at ho
      cases ho

end Discovery

namespace Toolset

/-! ## Shared flags -/

/-- None of the flags that a toolset holds asks for a compiler. -/
def Clean (ts : Toolset) : Prop := ∀ flag ∈ ts.flags ++ ts.lateFlags, ¬ IsOverride flag

/-- A toolset begins without flags that ask for a compiler. -/
theorem clean_ofConfig (cfg : Config) : (ofConfig cfg).Clean := by
  intro flag hflag hover
  obtain ⟨compiler, rfl⟩ := hover
  rcases List.mem_append.mp hflag with hdebug | hlevel
  · have hg : compilerFlag ++ compiler = "-g" := by
      simp only [ofConfig] at hdebug
      split at hdebug
      · exact List.mem_singleton.mp hdebug
      · cases hdebug
    have hchars := congrArg String.toList hg
    simp [compilerFlag] at hchars
  · obtain ⟨level, -, hO⟩ := List.mem_map.mp hlevel
    have hchars := congrArg String.toList hO
    simp [compilerFlag] at hchars

/-- What is meant for a command asks for no compiler. -/
theorem not_isOverride_of_mem_realFlags {run : List String} {flag : String}
    (hflag : flag ∈ realFlags run) : ¬ IsOverride flag := by
  have hnone : (askedBy? flag).isNone = true := (List.mem_filter.mp hflag).2
  rw [isOverride_iff, Option.isNone_iff_eq_none.mp hnone]
  exact Bool.false_ne_true

/-- Flags that ask for no compiler may join. -/
theorem Clean.mono {ts ts' : Toolset} (hc : ts.Clean) {run : List String}
    (hrun : ∀ flag ∈ run, ¬ IsOverride flag)
    (hmem : ts'.flags ++ ts'.lateFlags ⊆ run ++ (ts.flags ++ ts.lateFlags)) : ts'.Clean := by
  intro flag hflag
  rcases List.mem_append.mp (hmem hflag) with hflag | hflag
  · exact hrun flag hflag
  · exact hc flag hflag

/-- Compilers that are asked for add no flags. -/
theorem Clean.asking {ts : Toolset} (hc : ts.Clean) (asked : List String) :
    (asked.foldl asking ts).Clean := by
  rw [foldl_asking]
  exact hc

/-- A flag that asks for no compiler may be put in its place. -/
theorem Clean.insert {ts : Toolset} (hc : ts.Clean) {flag : String} (hflag : ¬ IsOverride flag)
    (position : FlagPosition) : (ts.insert flag position).Clean := by
  have hrun : ∀ f ∈ [flag], ¬ IsOverride f := List.forall_mem_singleton.mpr hflag
  refine hc.mono hrun fun f hf => ?_
  cases position <;> simp [Toolset.insert] at hf ⊢ <;> tauto

/-- Flags that ask for no compiler may be put in their place. -/
theorem Clean.insertRun {ts : Toolset} (hc : ts.Clean) {run : List String}
    (hrun : ∀ flag ∈ run, ¬ IsOverride flag) (position : FlagPosition) :
    (ts.insertRun run position).Clean := by
  refine hc.mono hrun fun f hf => ?_
  unfold Toolset.insertRun at hf
  cases position with
  | early =>
    dsimp only at hf
    split at hf
    · exact List.mem_append_right _ hf
    · rwa [List.append_assoc] at hf
  | normal =>
    simp only [List.mem_append, Flags.mem_pushUnique] at hf ⊢
    tauto
  | late =>
    simp only [List.mem_append, Flags.mem_pushUnique] at hf ⊢
    tauto

/-- Whatever is pushed, no flag that asks for a compiler is put among the others. -/
theorem Clean.pushed {ts : Toolset} (hc : ts.Clean) (run : List String) (position : FlagPosition) :
    (ts.pushed run position).Clean :=
  (hc.asking _).insertRun (fun _ => not_isOverride_of_mem_realFlags) position

/-- No call puts a flag that asks for a compiler among the others. -/
theorem Clean.after {ts : Toolset} (hc : ts.Clean) (c : Call) : (c.after ts).Clean := by
  cases c with
  | pushFlag flag position =>
    rw [Call.after]
    cases hasked : askedBy? flag with
    | none =>
      have hflag : ¬ IsOverride flag := by
        rw [isOverride_iff, hasked]
        exact Bool.false_ne_true
      exact hc.insert hflag position
    | some compiler => exact hc.asking [compiler]
  | pushFlags run position => exact hc.pushed run position
  | compiler answer => exact hc

/-- No calls put a flag that asks for a compiler among the others. -/
theorem Clean.calls {ts ts' : Toolset} (hc : ts.Clean) {calls : List Call}
    (hcalls : Calls m ts calls ts') : ts'.Clean := by
  induction hcalls with
  | nil ts => exact hc
  | cons hmade _ ih => exact ih (hmade.eq_after ▸ hc.after _)

end Toolset

namespace Discovery

open Toolset

/-- What a collection does to a toolset is done by calls that push the flags of the visited units.
-/
theorem calls_taking (m : Machine) (h : Host) (vs : List Visit) (ts : Toolset) :
    Calls m ts (pushes (vs.map (·.result.flags))) (vs.foldl taking ts) := by
  induction vs generalizing ts with
  | nil => exact .nil ts
  | cons v rest ih =>
    obtain ⟨ts', h', hrun⟩ := exists_run (ts.pushFlags v.result.flags .normal) h
    obtain rfl : ts' = taking ts v :=
      ((leads_of_run hrun _).mp (pushFlags_outcome ts v.result.flags .normal h)).1
    exact .cons ⟨h, h', hrun⟩ (ih (taking ts v))

/-- A unit that is visited was there at first or has no private flags yet. -/
theorem Progress.begins {n : Nat} {s s' : State} {vs : List Visit} (hp : Progress m cfg n s vs s') :
    ∀ v ∈ vs, v.unit ∈ s.todo ∨ v.unit.privateFlags = [] := by
  intro v hv
  rcases found_of_reached hp.reached hv with hfirst | ⟨w, hw, hfound⟩
  · exact .inl hfirst
  · -- What a visit refers to has just been made.
    obtain ⟨h, kind, p, -, hmade⟩ :=
      (hp.runs w hw).1.made (trivialFrame m cfg).toFrame v.unit hfound
    rw [hmade]
    exact .inr rfl

end Discovery

namespace Toolset

/-! ## What names the compiler -/

/-- Whether a word is part of what names the compiler of a choice: of what was set explicitly, else
of what was asked for, else it is what a record names. -/
inductive Names (m : Machine) (cfg : Config) (h : Host) : Option String → String → Prop where
  /-- The word stands in the text that was set explicitly. -/
  | explicit {compiler word : String} {asked? : Option String} (hcxx : cfg.cxx = some compiler)
      (hword : word ∈ Text.Words.split compiler) : Names m cfg h asked? word
  /-- The word stands in the text that was asked for. -/
  | asked {compiler word : String} (hcxx : cfg.cxx = none)
      (hword : word ∈ Text.Words.split compiler) : Names m cfg h (some compiler) word
  /-- The word is the compiler of a record. -/
  | remembered {text : String} {record : ToolchainRecord} (hcxx : cfg.cxx = none)
      (hread : h.files.readText m.cwd (ToolchainRecord.place cfg.cacheRoot) = .ok text)
      (hrecord : ToolchainRecord.ofText? text = some record) : Names m cfg h none record.compiler

section Naming

variable {h : Host} {asked? : Option String} {compiler word : String}

/-- What was set explicitly alone names an explicit compiler. -/
theorem names_explicit_iff (hcxx : cfg.cxx = some compiler) :
    Names m cfg h asked? word ↔ word ∈ Text.Words.split compiler := by
  refine ⟨fun hnames => ?_, .explicit hcxx⟩
  cases hnames with
  | explicit hcxx' hmem =>
    rw [hcxx] at hcxx'
    exact Option.some.inj hcxx' ▸ hmem
  | asked hnone => exact absurd (hcxx.symm.trans hnone) (Option.some_ne_none _)
  | remembered hnone => exact absurd (hcxx.symm.trans hnone) (Option.some_ne_none _)

/-- Otherwise what was asked for names it. -/
theorem names_asked_iff (hcxx : cfg.cxx = none) :
    Names m cfg h (some compiler) word ↔ word ∈ Text.Words.split compiler := by
  refine ⟨fun hnames => ?_, .asked hcxx⟩
  cases hnames with
  | explicit hsome => exact absurd (hsome.symm.trans hcxx) (Option.some_ne_none _)
  | asked _ hmem => exact hmem

/-- Where nothing was asked for, a record names it. -/
theorem names_remembered_iff (hcxx : cfg.cxx = none) :
    Names m cfg h none word ↔ ∃ text record,
      h.files.readText m.cwd (ToolchainRecord.place cfg.cacheRoot) = .ok text ∧
      ToolchainRecord.ofText? text = some record ∧ word = record.compiler := by
  constructor
  · intro hnames
    cases hnames with
    | explicit hsome => exact absurd (hsome.symm.trans hcxx) (Option.some_ne_none _)
    | @remembered text record _ hread hrecord => exact ⟨text, record, hread, hrecord, rfl⟩
  · rintro ⟨text, record, hread, hrecord, rfl⟩
    exact .remembered hcxx hread hrecord

end Naming

/-- Neither the compiler cache nor a candidate asks for a compiler. -/
theorem not_isOverride_of_fixed : ∀ word ∈ "ccache" :: candidates, ¬ IsOverride word := by
  intro word hword hover
  have hnone : ∀ word ∈ "ccache" :: candidates, (askedBy? word).isSome = false := by
    decide +kernel
  rw [isOverride_iff, hnone word hword] at hover
  cases hover

/-- The compiler cache in front of a command does not ask for a compiler. -/
theorem mem_launcher_append_iff {word : String} (hword : IsOverride word) (ccache : Bool)
    (words : List String) :
    word ∈ ToolchainRecord.launcherWords ccache ++ words ↔ word ∈ words := by
  rw [List.mem_append, or_iff_right]
  intro hmem
  refine not_isOverride_of_fixed word ?_ hword
  unfold ToolchainRecord.launcherWords at hmem
  split at hmem
  · rw [List.mem_singleton] at hmem
    exact hmem ▸ List.mem_cons_self
  · cases hmem

/-- A pseudo-flag among the words that are chosen is part of what names the compiler. -/
theorem Choice.override_iff {h : Host} {asked? : Option String} {words : List String}
    (hc : Choice m cfg h asked? (.ok words)) {word : String} (hword : IsOverride word) :
    word ∈ words ↔ Names m cfg h asked? word := by
  generalize hanswer : Except.ok words = answer at hc
  cases hc with
  | @explicit compiler _ hcxx => rw [names_explicit_iff hcxx, eq_of_nonEmpty hanswer.symm]
  | @asked compiler ccache hcxx =>
    rw [names_asked_iff hcxx, eq_of_nonEmpty hanswer.symm, mem_launcher_append_iff hword]
  | @remembered text record hcxx hread hrecord =>
    cases hanswer
    rw [names_remembered_iff hcxx, ToolchainRecord.words, mem_launcher_append_iff hword,
      List.mem_singleton]
    constructor
    · intro hname
      exact ⟨text, record, hread, hrecord, hname⟩
    · rintro ⟨text', record', hread', hrecord', hname⟩
      rw [hread] at hread'
      cases hread'
      rw [hrecord] at hrecord'
      cases hrecord'
      exact hname
  | @found h₁ h₂ ccache compiler hcxx hnone hlookup hquery hcache hfirst =>
    cases hanswer
    rw [names_remembered_iff hcxx, mem_launcher_append_iff hword, List.mem_singleton]
    constructor
    · rintro rfl
      obtain ⟨before, after, hsplit, -⟩ := hfirst
      refine absurd hword (not_isOverride_of_fixed word (List.mem_cons_of_mem _ ?_))
      rw [hsplit]
      exact List.mem_append_right _ List.mem_cons_self
    · rintro ⟨text, record, hread, hrecord, -⟩
      rw [hnone text hread] at hrecord
      cases hrecord
  | missing => cases hanswer

/-- The calls to which there is no answer yet that names a compiler. -/
def unanswered (calls : List Call) : List Call := calls.takeWhile fun c => c.choice?.isNone

/-- How the words that a toolset answers with after some calls have been chosen: on some host, by
the compiler that was asked for last before there was an answer. A pseudo-flag among the words is
part of what names that compiler. -/
structure Settled (m : Machine) (cfg : Config) (calls : List Call) (h : Host)
    (words : List String) : Prop where
  choice : Choice m cfg h ((unanswered calls).flatMap Call.asked).getLast? (.ok words)
  overrides : ∀ word, IsOverride word →
    (word ∈ words ↔ Names m cfg h ((unanswered calls).flatMap Call.asked).getLast? word)

/-- An answer behind all calls is behind those that are unanswered. -/
theorem unanswered_append_answer (calls : List Call) (words : List String) :
    unanswered (calls ++ [.compiler (.ok words)]) = unanswered calls := by
  induction calls with
  | nil => rfl
  | cons c rest ih =>
    unfold unanswered at ih ⊢
    rw [List.cons_append, List.takeWhile_cons, List.takeWhile_cons, ih]

/-- Calls without an answer that an answer follows are those that are unanswered. -/
theorem unanswered_of_split {before after : List Call} {words : List String}
    (hbefore : ∀ c ∈ before, c.choice? = none) :
    unanswered (before ++ .compiler (.ok words) :: after) = before := by
  have hnone : ∀ c ∈ before, c.choice?.isNone = true := fun c hc => by
    rw [hbefore c hc, Option.isNone_none]
  rw [unanswered, List.takeWhile_append_of_pos hnone]
  exact List.append_nil before

/-- What a toolset answers after some calls has been chosen in this manner. -/
theorem Calls.exists_settled {calls : List Call} {ts ts' : Toolset} {words : List String}
    (hcalls : Calls m (ofConfig cfg) calls ts) (hmade : (Call.compiler (.ok words)).Made m ts ts') :
    ∃ h, Settled m cfg calls h words := by
  have hchosen : ts'.chosen? = some words := by
    rw [hmade.turns.chosen?]
    cases hts : ts.chosen? with
    | none => rfl
    | some ws =>
      obtain ⟨h, h', hrun⟩ := hmade
      have hrun : (ts.compiler m).run h = ((.ok words, ts'), h') := hrun
      rw [compiler_settled hts] at hrun
      cases hrun
      rfl
  obtain ⟨before, after, ts₁, ts₂, hsplit, hunanswered, hbefore, h, h', hrun⟩ :=
    (hcalls.append (.cons hmade (.nil ts'))).exists_answer rfl hchosen
  have hfirst : unanswered calls = before := by
    rw [← unanswered_append_answer calls words, hsplit, unanswered_of_split hunanswered]
  have hchoice : Choice m cfg h ((unanswered calls).flatMap Call.asked).getLast? (.ok words) := by
    rw [hfirst]
    exact hbefore.choice hunanswered hrun
  exact ⟨h, hchoice, fun word hword => hchoice.override_iff hword⟩

/-! ## Whole commands -/

/-- What a command says whatever it is for asks for no compiler. -/
theorem not_isOverride_of_spoken : ∀ word ∈ [languageStandard, "-c", "-o"], ¬ IsOverride word := by
  intro word hword hover
  have hnone : ∀ word ∈ [languageStandard, "-c", "-o"], (askedBy? word).isSome = false := by
    decide +kernel
  rw [isOverride_iff, hnone word hword] at hover
  cases hover

/-- The pseudo-flags of a command that compiles are those among the words that it begins with and
the private flags of the unit, and files of such names. -/
theorem Clean.mem_compileWords_iff {ts : Toolset} (hc : ts.Clean) {word : String}
    (hword : IsOverride word) (words : List String) (u : CompilationUnit) (object : Path) :
    word ∈ compileWords words ts u object ↔
      word ∈ words ∨ word ∈ u.processedPath.text :: object.text :: u.privateFlags := by
  have hspoken : ∀ w ∈ [languageStandard, "-c", "-o"], word ≠ w := by
    rintro w hw rfl
    exact not_isOverride_of_spoken word hw hword
  have hflags : word ∉ ts.flags := fun hmem => hc word (List.mem_append_left _ hmem) hword
  have hlate : word ∉ ts.lateFlags := fun hmem => hc word (List.mem_append_right _ hmem) hword
  simp only [List.forall_mem_cons] at hspoken
  simp [compileWords, hspoken, hflags, hlate]

/-- The pseudo-flags of a command that links are those among the words that it begins with, and
files of such names. -/
theorem Clean.mem_linkWords_iff {ts : Toolset} (hc : ts.Clean) {word : String}
    (hword : IsOverride word) (words : List String) (executable : Path) (objects : List Path) :
    word ∈ linkWords words ts executable objects ↔
      word ∈ words ∨ word ∈ executable.text :: objects.map Path.text := by
  have hspoken : ∀ w ∈ [languageStandard, "-c", "-o"], word ≠ w := by
    rintro w hw rfl
    exact not_isOverride_of_spoken word hw hword
  have hflags : word ∉ ts.flags := fun hmem => hc word (List.mem_append_left _ hmem) hword
  simp only [List.forall_mem_cons] at hspoken
  simp [linkWords, hspoken, hflags]

/-- Which pseudo-flags there are in a command that begins with some words and says others on its
own: those among the ones or the others. The words that it begins with are settled by the calls. -/
structure Passes (m : Machine) (cfg : Config) (calls : List Call)
    (words own command : List String) : Prop where
  settled : ∃ h, Settled m cfg calls h words
  mem_iff : ∀ word, IsOverride word → (word ∈ command ↔ word ∈ words ∨ word ∈ own)

/-- The pseudo-flags of a command that compiles are told by what names the compiler and by what the
unit says. -/
theorem Calls.compile_passes {calls : List Call} {ts : Toolset}
    (hcalls : Calls m (ofConfig cfg) calls ts) (u : CompilationUnit) (h : Host) :
    Leads (ts.compileCommand m u) h fun r _ => ∀ c, r.1 = .ok c → ∃ words object,
      c.words = compileWords words ts u object ∧
      Passes m cfg calls words (u.processedPath.text :: object.text :: u.privateFlags) c.words := by
  refine (compileCommand_ran m ts u h).mono fun r _ hr c hc => ?_
  obtain ⟨words, choosing, object, hmade, -, -, -, hwords⟩ := hr.2 c hc
  refine ⟨words, object, hwords, hcalls.exists_settled hmade, fun word hword => ?_⟩
  rw [hwords]
  exact ((clean_ofConfig cfg).calls hcalls).mem_compileWords_iff hword words u object

/-- The pseudo-flags of a command that links are told by what names the compiler, and by files of
such names. -/
theorem Calls.link_passes {calls : List Call} {ts : Toolset}
    (hcalls : Calls m (ofConfig cfg) calls ts) (units : List CompilationUnit) (h : Host) :
    Leads (ts.linkCommand m units) h fun r _ => ∀ c executable, r.1 = .ok (c, executable) →
      ∃ words objects, c.words = linkWords words ts executable objects ∧
      Passes m cfg calls words (executable.text :: objects.map Path.text) c.words := by
  refine (linkCommand_made m ts units h).mono fun r _ hr c executable hc => ?_
  obtain ⟨words, objects, hmade, hwords⟩ := hr c executable hc
  refine ⟨words, objects, hwords, hcalls.exists_settled hmade, fun word hword => ?_⟩
  rw [hwords]
  exact ((clean_ofConfig cfg).calls hcalls).mem_linkWords_iff hword words executable objects

end Toolset

namespace Build

open Discovery Toolset Source

/-- Where all pseudo-flags come from that are told to a compiler, when the files of a script have
been collected. -/
structure Overridden (m : Machine) (cfg : Config) (calls : List Call) (b b₁ : Build)
    (ts ts₁ : Toolset) (h h₁ : Host) (n : Nat) (visits : List Visit) : Prop where
  steps : Steps m b.config n ⟨[], b.units, ts, h⟩ visits ⟨b₁.units, [], ts₁, h₁⟩
  units : ∀ u ∈ b₁.units, (u ∈ b.units ∧ u.scanned = true) ∨ ∃ v ∈ visits, v.result = u
  /-- A unit begins without private flags, and to visit it makes those pseudo-flags private that
  the `private:` lines of its file ask for. -/
  lines : ∀ v ∈ visits, (v.unit ∈ b.units ∨ v.unit.privateFlags = []) ∧ v.Overrides m
  /-- In a command that compiles there are those that are private flags of the unit, and those in
  what names the compiler. -/
  compiles : ∀ later ts₂ u k, Calls m ts₁ later ts₂ →
    Leads (ts₂.compileCommand m u) k fun r _ => ∀ c, r.1 = .ok c → ∃ words object,
      c.words = compileWords words ts₂ u object ∧
      Passes m cfg (calls ++ pushes (visits.map (·.result.flags)) ++ later) words
        (u.processedPath.text :: object.text :: u.privateFlags) c.words
  /-- In a command that links there are those in what names the compiler. -/
  links : ∀ later ts₂ units k, Calls m ts₁ later ts₂ →
    Leads (ts₂.linkCommand m units) k fun r _ => ∀ c executable, r.1 = .ok (c, executable) →
      ∃ words objects, c.words = linkWords words ts₂ executable objects ∧
        Passes m cfg (calls ++ pushes (visits.map (·.result.flags)) ++ later) words
          (executable.text :: objects.map Path.text) c.words

/-- When the files of a script have been collected, whatever flags are pushed before and after that,
a pseudo-flag is told to a compiler in two ways alone. It may be a private flag of the unit that is
compiled, which the `private:` lines of its file ask for; and it may stand in what names the
compiler, and then it is in all commands. -/
theorem overrides_traced {calls : List Call} {ts ts₁ : Toolset} {b b₁ : Build} {h h₁ : Host}
    (hcalls : Calls m (ofConfig cfg) calls ts)
    (hd : (b.discover m ts).run h = ((.ok (), b₁, ts₁), h₁)) :
    ∃ n visits, Overridden m cfg calls b b₁ ts ts₁ h h₁ n visits := by
  obtain ⟨n, vs, hsteps⟩ := exists_steps hd
  have hp := hsteps.progress
  have htaken : ts₁ = vs.foldl taking ts := hsteps.toolset
  have hall : ∀ later ts₂, Calls m ts₁ later ts₂ →
      Calls m (ofConfig cfg) (calls ++ pushes (vs.map (·.result.flags)) ++ later) ts₂ := by
    intro later ts₂ hlater
    rw [htaken] at hlater
    exact (hcalls.append (calls_taking m h vs ts)).append hlater
  refine ⟨n, vs, ?_⟩
  refine
    { steps := hsteps
      units := ?units
      lines := fun v hv => ⟨hp.begins v hv, (hp.runs v hv).1.overrides (hp.runs v hv).2⟩
      compiles := fun later ts₂ u k hlater => (hall later ts₂ hlater).compile_passes u k
      links := fun later ts₂ units k hlater => (hall later ts₂ hlater).link_passes units k }
  case units =>
    intro u hu
    rcases hsteps.visited hu with hnil | hold
    · cases hnil
    · exact hold

/-- A script with a compiler that is asked for behind `private:`. -/
def privateer : Host where
  files :=
    { entries := [
        (["bin"], .directory), (["bin", "cc"], .file [] true),
        (["m.cpp"], .file (Text.Utf8.encode
          "//#! private: --hbcxx-cxx=clang++\nint main() {}\n") false)] }

/-- Collecting the files of that script. -/
def privateerRun : (Except Failure Unit × Build × Toolset) × Host :=
  ((Build.ofPath workshop privateer benchConfig ⟨"m.cpp"⟩).discover workshop
    (.ofConfig benchConfig)).run privateer

/-- The command that compiles it then. -/
def privateerCommand : (Except BuildToolError Command × Toolset × CompilationUnit) × Host :=
  (privateerRun.1.2.2.compileCommand workshop privateerRun.1.2.1.primary).run privateerRun.2

/-- The pseudo-flag is told to the compiler that is used. -/
theorem overrides_traced_privateer :
    privateerRun.1.1 = .ok () ∧
      privateerCommand.1.1 = .ok { program := "cc", args := ["-std=c++11", "-c", "m.cpp", "-o",
        "m-hbcxx-7.o", "--hbcxx-cxx=clang++"] } ∧
      IsOverride "--hbcxx-cxx=clang++" ∧
      ∃ (visits : List Visit) (words : List String) (object : Path),
        "cc" :: ["-std=c++11", "-c", "m.cpp", "-o", "m-hbcxx-7.o", "--hbcxx-cxx=clang++"] =
          compileWords words privateerRun.1.2.2 privateerRun.1.2.1.primary object ∧
        Passes workshop benchConfig ([] ++ pushes (visits.map (·.result.flags)) ++ []) words
          (privateerRun.1.2.1.primary.processedPath.text :: object.text ::
            privateerRun.1.2.1.primary.privateFlags)
          ("cc" :: ["-std=c++11", "-c", "m.cpp", "-o", "m-hbcxx-7.o", "--hbcxx-cxx=clang++"]) := by
  have hok : privateerRun.1.1 = .ok () := by decide +kernel
  have hcommand : privateerCommand.1.1 = .ok { program := "cc", args := ["-std=c++11", "-c",
      "m.cpp", "-o", "m-hbcxx-7.o", "--hbcxx-cxx=clang++"] } := by decide +kernel
  refine ⟨hok, hcommand, ⟨"clang++", by decide +kernel⟩, ?_⟩
  obtain ⟨⟨⟨r, b, ts⟩, h⟩, hd⟩ : ∃ x, privateerRun = x := ⟨_, rfl⟩
  rw [privateerCommand, hd] at hcommand
  rw [hd] at hok ⊢
  cases hok
  obtain ⟨n, visits, htraced⟩ := overrides_traced (.nil (ofConfig benchConfig)) hd
  exact ⟨visits, htraced.compiles [] ts b.primary h (.nil ts) _ hcommand⟩

/-- A script with a pseudo-flag in what names the compiler. -/
def usher : Host where
  files :=
    { entries := [
        (["bin"], .directory), (["bin", "cc"], .file [] true),
        (["m.cpp"], .file (Text.Utf8.encode
          "//#! cxx: cc --hbcxx-cxx=clang++\nint main() {}\n") false)] }

/-- Collecting the files of that script. -/
def usherRun : (Except Failure Unit × Build × Toolset) × Host :=
  ((Build.ofPath workshop usher openConfig ⟨"m.cpp"⟩).discover workshop
    (.ofConfig openConfig)).run usher

/-- It is told to the compiler that compiles, and to the one that links. -/
example : ((usherRun.1.2.2.compileCommand workshop usherRun.1.2.1.primary).run usherRun.2).1.1 =
      .ok { program := "cc", args := ["--hbcxx-cxx=clang++", "-std=c++11", "-c", "m.cpp", "-o",
        "m-hbcxx-7.o"] } ∧
    ((usherRun.1.2.2.linkCommand workshop usherRun.1.2.1.units).run usherRun.2).1.1 =
      .ok ({ program := "cc", args := ["--hbcxx-cxx=clang++", "-std=c++11", "-o", "m-hbcxx-7",
        "m-hbcxx-7.o"] }, ⟨"m-hbcxx-7"⟩) := by
  decide +kernel

end Build

end CxxScript

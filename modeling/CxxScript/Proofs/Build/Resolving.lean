import CxxScript.Proofs.Build.Executables
import CxxScript.Proofs.Build.Pushing

/-!
# Which compiler a toolset settles on

Between pushes of flags a toolset is asked for its compiler, and the first answer that names one is
its choice from then on. `Toolset.Choice` says which one that is: the compiler that was set
explicitly, else the last one that a pushed flag has asked for, else the remembered one, else the
first candidate that compiles the probe. `compiler_settles` is about every sequence of calls,
`Toolset.Calls`, between which the host may be changed by anyone. What one call leaves to the
toolset, `Call.Made.turns`, carries it: until there is a choice the compiler that was asked for
last is kept, and afterwards neither.
-/

set_option autoImplicit false

namespace CxxScript.Toolset

open Host

variable {m : Machine}

/-! ## What can be chosen -/

/-- Whether a command can be run for what it writes, and ends well. -/
def EndsWell (m : Machine) (c : Command) (h : Host) : Prop :=
  ∃ status output, ((capture m c).run h).1 = .ok (status, output) ∧ status.success = true

/-- The command that asks a compiler cache for its version. -/
def cacheQuery : Command := { program := "ccache", args := ["--version"], discardStderr := true }

/-- Where the probe is written. -/
def probePath (root : Path) : Path := root.join ⟨"cxx11check.cpp"⟩

/-- The command by which a compiler is tried. -/
def trial (root : Path) (compiler : String) : Command :=
  probeCommand compiler (probePath root) ((probePath root).withExtension "o")

/-- Whether a compiler compiles the probe: the probe can be written below the root, and the
compiler ends well when it is told to compile that by the language standard. -/
def CompilesProbe (m : Machine) (root : Path) (compiler : String) (h : Host) : Prop :=
  ∃ h₁ h₂, (makeDirectories m root).run h = (.ok (), h₁) ∧
    (write m (probePath root) (Text.Utf8.encode probeProgram)).run h₁ = (.ok (), h₂) ∧
    EndsWell m (trial root compiler) h₂

/-- The host after some compilers have been tried, one after the other. -/
def tried (m : Machine) (root : Path) (compilers : List String) (h : Host) : Host :=
  compilers.foldl (fun h compiler => ((isUsable m root compiler).run h).2) h

/-- None of some compilers compiles the probe when its turn comes. -/
def NoneCompiles (m : Machine) (root : Path) (compilers : List String) (h : Host) : Prop :=
  ∀ before compiler after, compilers = before ++ compiler :: after →
    ¬ CompilesProbe m root compiler (tried m root before h)

/-- The first of some compilers that compiles the probe when its turn comes. -/
def FirstCompiles (m : Machine) (root : Path) (compilers : List String) (h : Host)
    (compiler : String) : Prop :=
  ∃ before after, compilers = before ++ compiler :: after ∧ NoneCompiles m root before h ∧
    CompilesProbe m root compiler (tried m root before h)

/-- What a toolset that has not chosen yet answers when it is asked for its compiler: by the
configuration, by the host, and by the compiler that was asked for last. -/
inductive Choice (m : Machine) (cfg : Config) (h : Host) :
    Option String → Except BuildToolError (List String) → Prop where
  /-- An explicit compiler is taken, whatever else is asked for. -/
  | explicit {compiler : String} {asked? : Option String} (hcxx : cfg.cxx = some compiler) :
    Choice m cfg h asked? (nonEmpty (Text.Words.split compiler))
  /-- Otherwise the one that was asked for is taken, behind a compiler cache. -/
  | asked {compiler : String} {ccache : Bool} (hcxx : cfg.cxx = none)
      (hcache : ccache = true ↔ EndsWell m cacheQuery h) :
    Choice m cfg h (some compiler)
      (nonEmpty (ToolchainRecord.launcherWords ccache ++ Text.Words.split compiler))
  /-- Otherwise the one that a record names is taken. -/
  | remembered {text : String} {record : ToolchainRecord} (hcxx : cfg.cxx = none)
      (hread : h.files.readText m.cwd (ToolchainRecord.place cfg.cacheRoot) = .ok text)
      (hrecord : ToolchainRecord.ofText? text = some record) :
    Choice m cfg h none (.ok record.words)
  /-- Otherwise the first candidate that compiles the probe is taken, behind a compiler cache. -/
  | found {h₁ h₂ : Host} {ccache : Bool} {compiler : String} (hcxx : cfg.cxx = none)
      (hnone : ∀ text, h.files.readText m.cwd (ToolchainRecord.place cfg.cacheRoot) = .ok text →
        ToolchainRecord.ofText? text = none)
      (hlookup : (ToolchainRecord.lookup m cfg.cacheRoot).run h = (none, h₁))
      (hquery : (findCache m).run h₁ = (ccache, h₂))
      (hcache : ccache = true ↔ EndsWell m cacheQuery h₁)
      (hfirst : FirstCompiles m cfg.cacheRoot candidates h₂ compiler) :
    Choice m cfg h none (.ok (ToolchainRecord.launcherWords ccache ++ [compiler]))
  /-- There may be none. -/
  | missing {h₁ h₂ : Host} {ccache : Bool} (hcxx : cfg.cxx = none)
      (hnone : ∀ text, h.files.readText m.cwd (ToolchainRecord.place cfg.cacheRoot) = .ok text →
        ToolchainRecord.ofText? text = none)
      (hlookup : (ToolchainRecord.lookup m cfg.cacheRoot).run h = (none, h₁))
      (hquery : (findCache m).run h₁ = (ccache, h₂))
      (hmissing : NoneCompiles m cfg.cacheRoot candidates h₂) :
    Choice m cfg h none (.error .noCompiler)

/-- How a query ends is how the command ends. -/
theorem capture_outcome (m : Machine) (c : Command) (h : Host) :
    Leads (capture m c) h fun r _ =>
      (∀ cause, r = .error cause → ¬ EndsWell m c h) ∧
      ∀ status output, r = .ok (status, output) → (status.success = true ↔ EndsWell m c h) := by
  obtain ⟨r, h', hr⟩ := exists_run (capture m c) h
  rw [leads_of_run hr, EndsWell, hr]
  constructor
  · rintro cause rfl ⟨status, output, heq, -⟩
    cases heq
  · rintro status output rfl
    refine ⟨fun hsuccess => ⟨status, output, rfl, hsuccess⟩, ?_⟩
    rintro ⟨status', output', heq, hsuccess⟩
    cases heq
    exact hsuccess

/-- A compiler cache is found when it tells its version. -/
theorem findCache_outcome (m : Machine) (h : Host) :
    Leads (findCache m) h fun ccache _ => ccache = true ↔ EndsWell m cacheQuery h := by
  unfold findCache
  refine Leads.bind (capture_outcome m cacheQuery h) fun r h₁ hr => ?_
  obtain ⟨herror, hok⟩ := hr
  cases r with
  | error cause =>
    exact ⟨fun htrue => (by cases htrue), fun hends => absurd hends (herror cause rfl)⟩
  | ok answer =>
    obtain ⟨status, output⟩ := answer
    have hstatus := hok status output rfl
    dsimp only
    split
    · next hsuccess => exact ⟨fun _ => hstatus.mp hsuccess, fun _ => rfl⟩
    · next hfailed =>
      exact ⟨fun htrue => (by cases htrue), fun hends => absurd (hstatus.mpr hends) hfailed⟩

/-- A compiler is found usable when it compiles the probe. -/
theorem isUsable_outcome (m : Machine) (root : Path) (compiler : String) (h : Host) :
    Leads (isUsable m root compiler) h fun usable _ =>
      usable = true ↔ CompilesProbe m root compiler h := by
  unfold isUsable
  obtain ⟨r, h₁, hmade⟩ := exists_run (makeDirectories m root) h
  rw [leads_bind, leads_of_run hmade]
  cases r with
  | error cause =>
    refine ⟨fun htrue => (by cases htrue), ?_⟩
    rintro ⟨h₁', h₂, hmade', -⟩
    rw [hmade] at hmade'
    cases hmade'
  | ok _ =>
    obtain ⟨r, h₂, hwritten⟩ := exists_run
      (write m (probePath root) (Text.Utf8.encode probeProgram)) h₁
    refine (leads_bind _ _ _ _).mpr ((leads_of_run hwritten _).mpr ?_)
    cases r with
    | error cause =>
      refine ⟨fun htrue => (by cases htrue), ?_⟩
      rintro ⟨h₁', h₂', hmade', hwritten', -⟩
      rw [hmade] at hmade'
      cases hmade'
      rw [hwritten] at hwritten'
      cases hwritten'
    | ok _ =>
      have hends : CompilesProbe m root compiler h ↔ EndsWell m (trial root compiler) h₂ := by
        refine ⟨?_, fun hends => ⟨h₁, h₂, hmade, hwritten, hends⟩⟩
        rintro ⟨h₁', h₂', hmade', hwritten', hends⟩
        rw [hmade] at hmade'
        cases hmade'
        rw [hwritten] at hwritten'
        cases hwritten'
        exact hends
      rw [hends]
      refine Leads.bind (capture_outcome m (trial root compiler) h₂) fun r h₃ hr => ?_
      obtain ⟨herror, hok⟩ := hr
      refine Leads.skip fun _ h₄ => ?_
      cases r with
      | error cause =>
        exact ⟨fun htrue => (by cases htrue), fun hends => absurd hends (herror cause rfl)⟩
      | ok answer => exact hok answer.1 answer.2 rfl

/-- The compiler that is found is the first of some that compiles the probe. -/
theorem firstUsable_outcome (m : Machine) (root : Path) (compilers : List String) (h : Host) :
    Leads (firstUsable m root compilers) h fun found _ =>
      (found = none → NoneCompiles m root compilers h) ∧
      ∀ compiler, found = some compiler → FirstCompiles m root compilers h compiler := by
  induction compilers generalizing h with
  | nil =>
    refine ⟨fun _ before compiler after hsplit => ?_, fun compiler hfound => by cases hfound⟩
    exact absurd hsplit (by simp)
  | cons first rest ih =>
    obtain ⟨usable, h₁, htry⟩ := exists_run (isUsable m root first) h
    have hiff : usable = true ↔ CompilesProbe m root first h :=
      (leads_of_run htry _).mp (isUsable_outcome m root first h)
    -- After the first one has been tried, the others find the host it has left.
    have htried : ∀ before, tried m root (first :: before) h = tried m root before h₁ := by
      intro before
      rw [tried, List.foldl_cons, htry]
      rfl
    have hnot : ∀ before, NoneCompiles m root before h₁ → usable = false →
        NoneCompiles m root (first :: before) h := by
      rintro before hnone hunusable pre compiler after hsplit hcompiles
      cases pre with
      | nil =>
        cases hsplit
        rw [hiff.mpr hcompiles] at hunusable
        cases hunusable
      | cons _ pre =>
        cases hsplit
        rw [htried] at hcompiles
        exact hnone pre compiler after rfl hcompiles
    unfold firstUsable
    rw [leads_bind, leads_of_run htry]
    cases usable with
    | true =>
      refine ⟨fun hnone => (by cases hnone), fun compiler hfound => ?_⟩
      cases hfound
      refine ⟨[], rest, rfl, fun before compiler after hsplit => ?_, hiff.mp rfl⟩
      exact absurd hsplit (by simp)
    | false =>
      refine (ih h₁).mono fun found h₂ hrest => ⟨fun hnone => hnot rest (hrest.1 hnone) rfl, ?_⟩
      intro compiler hfound
      obtain ⟨before, after, hsplit, hnone, hcompiles⟩ := hrest.2 compiler hfound
      refine ⟨first :: before, after, by rw [hsplit, List.cons_append], hnot before hnone rfl, ?_⟩
      rwa [htried]

/-- A record is looked up where it can be read and parsed. -/
theorem lookup_outcome (m : Machine) (root : Path) (h : Host) :
    Leads (ToolchainRecord.lookup m root) h fun found _ =>
      (∀ record, found = some record → ∃ text,
        h.files.readText m.cwd (ToolchainRecord.place root) = .ok text ∧
        ToolchainRecord.ofText? text = some record) ∧
      (found = none → ∀ text, h.files.readText m.cwd (ToolchainRecord.place root) = .ok text →
        ToolchainRecord.ofText? text = none) := by
  unfold ToolchainRecord.lookup
  rw [leads_bind, leads_get]
  split
  · next cause hread =>
    refine ⟨fun record hfound => (by cases hfound), fun _ text htext => ?_⟩
    rw [hread] at htext
    cases htext
  · next text hread =>
    split
    · next record hrecord =>
      refine ⟨fun record' hfound => ?_, fun hnone => by cases hnone⟩
      cases hfound
      exact ⟨text, hread, hrecord⟩
    · next hnone =>
      refine ⟨fun record' hfound => (by cases hfound), fun _ text' htext => ?_⟩
      rw [hread] at htext
      cases htext
      exact hnone

/-- Words that are taken are taken as they are. -/
theorem eq_of_nonEmpty {ws words : List String} (h : nonEmpty ws = .ok words) : words = ws := by
  unfold nonEmpty at h
  split at h
  · cases h
  · cases h
    rfl

/-- Words that are taken are not empty. -/
theorem ne_nil_of_nonEmpty {ws words : List String} (h : nonEmpty ws = .ok words) :
    words ≠ [] := by
  rintro rfl
  rw [← eq_of_nonEmpty h] at h
  cases h

/-- Words that are not taken are an empty compiler. -/
theorem error_of_nonEmpty {ws : List String} {e : BuildToolError} (h : nonEmpty ws = .error e) :
    e = .emptyCompiler := by
  unfold nonEmpty at h
  split at h
  · cases h
    rfl
  · cases h

/-- A record names a command. -/
theorem nonEmpty_words (record : ToolchainRecord) : nonEmpty record.words = .ok record.words := by
  rw [nonEmpty, ToolchainRecord.words, if_neg (by simp)]

/-- What is resolved is a choice. -/
theorem resolve_choice (m : Machine) (ts : Toolset) (h : Host) :
    Leads (ts.resolve m) h fun answer _ => Choice m ts.config h ts.asked? answer := by
  unfold resolve
  cases hcxx : ts.config.cxx with
  | some compiler => exact .explicit hcxx
  | none =>
    cases hasked : ts.asked? with
    | some asked =>
      exact Leads.bind (findCache_outcome m h) fun ccache h₁ hcache => .asked hcxx hcache
    | none =>
      obtain ⟨record?, h₁, hlookup⟩ :=
        exists_run (ToolchainRecord.lookup m ts.config.cacheRoot) h
      have hrecord := (leads_of_run hlookup _).mp (lookup_outcome m ts.config.cacheRoot h)
      refine (leads_bind _ _ _ _).mpr ((leads_of_run hlookup _).mpr ?_)
      cases record? with
      | some record =>
        obtain ⟨text, hread, hparse⟩ := hrecord.1 record rfl
        have hwords : Choice m ts.config h none (nonEmpty record.words) := by
          rw [nonEmpty_words]
          exact .remembered hcxx hread hparse
        exact hwords
      | none =>
        have hnone := hrecord.2 rfl
        obtain ⟨ccache, h₂, hquery⟩ := exists_run (findCache m) h₁
        have hcache := (leads_of_run hquery _).mp (findCache_outcome m h₁)
        refine (leads_bind _ _ _ _).mpr ((leads_of_run hquery _).mpr ?_)
        refine Leads.bind (firstUsable_outcome m ts.config.cacheRoot candidates h₂)
          fun found h₃ hfound => ?_
        cases found with
        | none => exact .missing hcxx hnone hlookup hquery (hfound.1 rfl)
        | some compiler =>
          refine Leads.skip fun r h₄ => ?_
          have hchoice := Choice.found hcxx hnone hlookup hquery hcache (hfound.2 compiler rfl)
          cases r with
          | error cause => exact hchoice
          | ok _ => exact hchoice

/-- What a toolset that has not chosen answers, and what it keeps of that. -/
theorem compiler_unsettled {ts : Toolset} (hnone : ts.chosen? = none) (m : Machine) (h : Host) :
    Leads (ts.compiler m) h fun r _ => Choice m ts.config h ts.asked? r.1 ∧
      r.2 = { ts with chosen? := r.1.toOption } := by
  unfold compiler
  rw [hnone]
  refine Leads.bind (resolve_choice m ts h) fun answer h₁ hchoice => ?_
  cases answer with
  | error e =>
    refine ⟨hchoice, ?_⟩
    show ts = { ts with chosen? := none }
    rw [← hnone]
  | ok words => exact ⟨hchoice, rfl⟩

/-- A toolset that has chosen answers with its choice. -/
theorem compiler_settled {ts : Toolset} {words : List String} (hchosen : ts.chosen? = some words)
    (m : Machine) (h : Host) : (ts.compiler m).run h = ((.ok words, ts), h) := by
  unfold compiler
  rw [hchosen]
  rfl

/-- No choice is without words. -/
theorem Choice.ne_nil {cfg : Config} {h : Host} {asked? : Option String}
    {answer : Except BuildToolError (List String)} (hc : Choice m cfg h asked? answer)
    {words : List String} (hanswer : answer = .ok words) : words ≠ [] := by
  cases hc with
  | explicit hcxx => exact ne_nil_of_nonEmpty hanswer
  | asked hcxx hcache => exact ne_nil_of_nonEmpty hanswer
  | remembered hcxx hread hrecord =>
    cases hanswer
    simp [ToolchainRecord.words]
  | found hcxx hnone hlookup hquery hcache hfirst =>
    cases hanswer
    simp
  | missing hcxx hnone hlookup hquery hmissing => cases hanswer

/-- No choice fails but for want of a compiler. -/
theorem Choice.error {cfg : Config} {h : Host} {asked? : Option String}
    {answer : Except BuildToolError (List String)} (hc : Choice m cfg h asked? answer)
    {e : BuildToolError} (he : answer = .error e) : e = .emptyCompiler ∨ e = .noCompiler := by
  cases hc with
  | explicit hcxx => exact .inl (error_of_nonEmpty he)
  | asked hcxx hcache => exact .inl (error_of_nonEmpty he)
  | remembered hcxx hread hrecord => cases he
  | found hcxx hnone hlookup hquery hcache hfirst => cases he
  | missing hcxx hnone hlookup hquery hmissing =>
    cases he
    exact .inr rfl

/-- With an explicit compiler what was asked for makes no difference. -/
theorem Choice.eq_of_explicit {cfg : Config} {h : Host} {asked? : Option String}
    {answer : Except BuildToolError (List String)} (hc : Choice m cfg h asked? answer)
    {compiler : String} (hcxx : cfg.cxx = some compiler) :
    answer = nonEmpty (Text.Words.split compiler) := by
  cases hc with
  | explicit hexplicit =>
    rw [hcxx] at hexplicit
    cases hexplicit
    rfl
  | asked hnone => rw [hcxx] at hnone; cases hnone
  | remembered hnone => rw [hcxx] at hnone; cases hnone
  | found hnone => rw [hcxx] at hnone; cases hnone
  | missing hnone => rw [hcxx] at hnone; cases hnone

/-! ## Calls -/

/-- A call on a toolset, that for the compiler with its answer. -/
inductive Call where
  | pushFlag (flag : String) (position : FlagPosition)
  | pushFlags (run : List String) (position : FlagPosition)
  | compiler (answer : Except BuildToolError (List String))

namespace Call

/-- The compilers that the flags of a call ask for, in order. -/
def asked : Call → List String
  | .pushFlag flag _ => (askedBy? flag).toList
  | .pushFlags run _ => run.filterMap askedBy?
  | .compiler _ => []

/-- The choice that a call is answered with. -/
def choice? : Call → Option (List String)
  | .compiler answer => answer.toOption
  | .pushFlag .. | .pushFlags .. => none

/-- A call turns one toolset into another on some host. -/
def Made (m : Machine) (ts : Toolset) (c : Call) (ts' : Toolset) : Prop :=
  ∃ h h', match c with
    | .pushFlag flag position => (ts.pushFlag flag position).run h = (ts', h')
    | .pushFlags run position => (ts.pushFlags run position).run h = (ts', h')
    | .compiler answer => (ts.compiler m).run h = ((answer, ts'), h')

/-- What a call leaves of a toolset. -/
def after : Call → Toolset → Toolset
  | .pushFlag flag position, ts => (askedBy? flag).elim (ts.insert flag position) ts.asking
  | .pushFlags run position, ts => ts.pushed run position
  | .compiler answer, ts => { ts with chosen? := ts.chosen?.or answer.toOption }

/-- Whatever the host, a call leaves the same of a toolset, by its answer. -/
theorem Made.eq_after {ts ts' : Toolset} {c : Call} (hc : c.Made m ts ts') :
    ts' = c.after ts := by
  obtain ⟨h, h', hrun⟩ := hc
  cases c with
  | pushFlag flag position =>
    have hrun : (ts.pushFlag flag position).run h = (ts', h') := hrun
    obtain ⟨hinsert, hasking, -⟩ := (leads_of_run hrun _).mp (pushFlag_outcome ts flag position h)
    rw [after]
    cases hasked : askedBy? flag with
    | none => exact hinsert hasked
    | some compiler => exact hasking compiler hasked
  | pushFlags run position =>
    have hrun : (ts.pushFlags run position).run h = (ts', h') := hrun
    exact ((leads_of_run hrun _).mp (pushFlags_outcome ts run position h)).1
  | compiler answer =>
    have hrun : (ts.compiler m).run h = ((answer, ts'), h') := hrun
    rw [after]
    cases hchosen : ts.chosen? with
    | some words =>
      rw [compiler_settled hchosen] at hrun
      cases hrun
      rw [Option.some_or, ← hchosen]
    | none => exact ((leads_of_run hrun _).mp (compiler_unsettled hchosen m h)).2

end Call

/-- Calls that are made one after the other. The host may be changed by anyone between them. -/
inductive Calls (m : Machine) : Toolset → List Call → Toolset → Prop where
  | nil (ts : Toolset) : Calls m ts [] ts
  | cons {ts ts₁ ts₂ : Toolset} {c : Call} {calls : List Call} (hmade : c.Made m ts ts₁)
      (hcalls : Calls m ts₁ calls ts₂) : Calls m ts (c :: calls) ts₂

/-- The calls that push some runs of flags, one after the other, behind the shared flags. -/
def pushes (runs : List (List String)) : List Call := runs.map (.pushFlags · .normal)

/-- What becomes of a toolset: its flags apart, it has asked for some compilers and may have
chosen one. -/
structure Turns (asked : List String) (choice? : Option (List String)) (ts ts' : Toolset) :
    Prop where
  config : ts'.config = ts.config
  asked? : ts'.asked? = (asked.foldl asking ts).asked?
  chosen? : ts'.chosen? = ts.chosen?.or choice?

/-- Flags that are put in their place change nothing else. -/
theorem turns_insert (ts : Toolset) (flag : String) (position : FlagPosition) :
    Turns [] none ts (ts.insert flag position) := by
  cases position <;> exact ⟨rfl, rfl, (Option.or_none).symm⟩

/-- A run of flags that is put in its place changes nothing else. -/
theorem turns_insertRun (ts : Toolset) (run : List String) (position : FlagPosition) :
    Turns [] none ts (ts.insertRun run position) := by
  unfold insertRun
  cases position with
  | early => dsimp only; split <;> exact ⟨rfl, rfl, (Option.or_none).symm⟩
  | normal => exact ⟨rfl, rfl, (Option.or_none).symm⟩
  | late => exact ⟨rfl, rfl, (Option.or_none).symm⟩

/-- Compilers that are asked for are no choice. -/
theorem turns_asking (ts : Toolset) (asked : List String) :
    Turns asked none ts (asked.foldl asking ts) := by
  rw [foldl_asking]
  refine ⟨rfl, ?_, (Option.or_none).symm⟩
  rw [← foldl_asking]

/-- What a call leaves of a toolset: its flags apart, what was asked for and chosen. -/
theorem turns_after (c : Call) (ts : Toolset) : Turns c.asked c.choice? ts (c.after ts) := by
  cases c with
  | pushFlag flag position =>
    rw [Call.asked, Call.after]
    cases askedBy? flag with
    | none => exact turns_insert ts flag position
    | some compiler => exact turns_asking ts [compiler]
  | pushFlags run position =>
    have hasking := turns_asking ts (run.filterMap askedBy?)
    have hinsert := turns_insertRun ((run.filterMap askedBy?).foldl asking ts) (realFlags run)
      position
    refine ⟨hinsert.config.trans hasking.config, hinsert.asked?, ?_⟩
    exact hinsert.chosen?.trans (Option.or_none.trans hasking.chosen?)
  | compiler answer => exact ⟨rfl, rfl, rfl⟩

/-- What becomes of a toolset by a call. -/
theorem Call.Made.turns {ts ts' : Toolset} {c : Call} (hc : c.Made m ts ts') :
    Turns c.asked c.choice? ts ts' := by
  rw [hc.eq_after]
  exact turns_after c ts

/-- The compiler that is asked for last is kept, as long as none is set explicitly or chosen. -/
theorem asked?_foldl_asking {ts : Toolset} (hcxx : ts.config.cxx = none)
    (hnone : ts.chosen? = none) (asked : List String) :
    (asked.foldl asking ts).asked? = asked.getLast?.or ts.asked? := by
  induction asked generalizing ts with
  | nil => rfl
  | cons compiler rest ih =>
    have hasking : ts.asking compiler = { ts with asked? := some compiler } := by
      rw [asking, hcxx, hnone, if_neg (by simp)]
    have hrest := @ih { ts with asked? := some compiler } hcxx hnone
    rw [List.foldl_cons, hasking, hrest, List.getLast?_cons]
    cases rest.getLast? <;> rfl

namespace Calls

variable {ts ts' : Toolset} {calls : List Call}

/-- Calls after calls are calls. -/
theorem append (hc : Calls m ts calls ts') {later : List Call} {ts'' : Toolset}
    (hlater : Calls m ts' later ts'') : Calls m ts (calls ++ later) ts'' := by
  induction hc with
  | nil ts => exact hlater
  | cons hmade _ ih => exact .cons hmade (ih hlater)

/-- Calls leave a toolset its configuration. -/
theorem config (hc : Calls m ts calls ts') : ts'.config = ts.config := by
  induction hc with
  | nil ts => rfl
  | cons hmade hcalls ih => rw [ih, hmade.turns.config]

/-- A toolset that has chosen stays with its choice. -/
theorem settled (hc : Calls m ts calls ts') {words : List String}
    (hchosen : ts.chosen? = some words) : ts'.chosen? = some words := by
  induction hc with
  | nil ts => exact hchosen
  | cons hmade hcalls ih =>
    refine ih ?_
    rw [hmade.turns.chosen?, hchosen, Option.some_or]

/-- A toolset whose calls have not been answered with a choice has none, and keeps the compiler that
was asked for last. -/
theorem unsettled (hc : Calls m ts calls ts') (hnone : ts.chosen? = none)
    (hunanswered : ∀ c ∈ calls, c.choice? = none) :
    ts'.chosen? = none ∧ (ts.config.cxx = none →
      ts'.asked? = (calls.flatMap Call.asked).getLast?.or ts.asked?) := by
  induction hc with
  | nil ts => exact ⟨hnone, fun _ => rfl⟩
  | @cons ts ts₁ ts₂ c calls hmade hcalls ih =>
    obtain ⟨hfirst, hrest⟩ := List.forall_mem_cons.mp hunanswered
    have hturns := hmade.turns
    have hnone₁ : ts₁.chosen? = none := by rw [hturns.chosen?, hnone, hfirst, Option.or_none]
    obtain ⟨hchosen, hasked⟩ := ih hnone₁ hrest
    refine ⟨hchosen, fun hcxx => ?_⟩
    have hlast : ts₁.asked? = c.asked.getLast?.or ts.asked? :=
      hturns.asked?.trans (asked?_foldl_asking hcxx hnone c.asked)
    rw [hasked (hturns.config ▸ hcxx), hlast, List.flatMap_cons, List.getLast?_append,
      Option.or_assoc]

/-- A toolset that has come to a choice has been answered with it, and with none before. -/
theorem exists_answer (hc : Calls m ts calls ts') (hnone : ts.chosen? = none)
    {words : List String} (hchosen : ts'.chosen? = some words) :
    ∃ before after ts₁ ts₂, calls = before ++ .compiler (.ok words) :: after ∧
      (∀ c ∈ before, c.choice? = none) ∧ Calls m ts before ts₁ ∧
      (Call.compiler (.ok words)).Made m ts₁ ts₂ := by
  induction hc with
  | nil ts =>
    rw [hnone] at hchosen
    cases hchosen
  | @cons ts ts₁ ts₂ c calls hmade hcalls ih =>
    have hturns := hmade.turns.chosen?
    rw [hnone, Option.none_or] at hturns
    cases hchoice : c.choice? with
    | none =>
      rw [hchoice] at hturns
      obtain ⟨before, after, ts₃, ts₄, hsplit, hunanswered, hbefore, hanswered⟩ := ih hturns hchosen
      refine ⟨c :: before, after, ts₃, ts₄, by rw [hsplit, List.cons_append], ?_,
        .cons hmade hbefore, hanswered⟩
      exact List.forall_mem_cons.mpr ⟨hchoice, hunanswered⟩
    | some ws =>
      rw [hchoice] at hturns
      have hws : ws = words := Option.some.inj ((hcalls.settled hturns).symm.trans hchosen)
      obtain rfl : c = .compiler (.ok words) := by
        cases c with
        | pushFlag flag position => cases hchoice
        | pushFlags run position => cases hchoice
        | compiler answer =>
          cases answer with
          | error e => cases hchoice
          | ok ws' => rw [← hws, Option.some.inj hchoice]
      exact ⟨[], calls, ts, ts₁, rfl, by simp, .nil ts, hmade⟩

/-- What a toolset answers after calls that have been answered with no choice is a choice by the
compiler that was asked for last. -/
theorem choice {cfg : Config} (hc : Calls m (ofConfig cfg) calls ts)
    (hunanswered : ∀ c ∈ calls, c.choice? = none) {answer : Except BuildToolError (List String)}
    {h h' : Host} (hrun : (ts.compiler m).run h = ((answer, ts'), h')) :
    Choice m cfg h (calls.flatMap Call.asked).getLast? answer := by
  have hconfig : ts.config = cfg := hc.config
  obtain ⟨hnone, hasked⟩ := hc.unsettled rfl hunanswered
  have hchoice : Choice m ts.config h ts.asked? answer :=
    ((leads_of_run hrun _).mp (compiler_unsettled hnone m h)).1
  rw [hconfig] at hchoice
  cases hcxx : cfg.cxx with
  | some compiler =>
    rw [hchoice.eq_of_explicit hcxx]
    exact .explicit hcxx
  | none =>
    have hlast : ts.asked? = (calls.flatMap Call.asked).getLast? :=
      (hasked hcxx).trans Option.or_none
    rwa [hlast] at hchoice

end Calls

/-! ## What a choice is used for -/

/-- The words that a toolset has chosen begin whatever it commands: it answers with them, and leaves
them to its commands, which fail for other reasons only. -/
structure Uses (m : Machine) (ts : Toolset) (words : List String) : Prop where
  compiler : ∀ h, (ts.compiler m).run h = ((.ok words, ts), h)
  compileCommand : ∀ u h, Leads (ts.compileCommand m u) h fun r _ => r.2.1 = ts ∧
    (∀ e, r.1 = .error e → ∃ cause, e = .unit cause) ∧
    ∀ c, r.1 = .ok c → ∃ object, r.2.2.object? = some object ∧
      c.words = words ++ languageStandard :: ts.compileArgs r.2.2 object
  linkCommand : ∀ units h, Leads (ts.linkCommand m units) h fun r _ => r.2.1 = ts ∧
    (∀ e, r.1 = .error e → e = .nothingToLink ∨ ∃ cause, e = .unit cause) ∧
    ∀ c executable, r.1 = .ok (c, executable) → ∃ objects,
      c.words = words ++ languageStandard :: ts.linkArgs executable objects

/-- A command begins with what the toolset answers and the language standard. -/
theorem base_of_answer {ts ts' : Toolset} {words : List String} {h h' : Host} (hne : words ≠ [])
    (hrun : (ts.compiler m).run h = ((.ok words, ts'), h')) :
    ∃ c : Command, c.words = words ++ [languageStandard] ∧
      (ts.base m).run h = ((.ok c, ts'), h') := by
  cases words with
  | nil => exact absurd rfl hne
  | cons program args =>
    refine ⟨{ program, args := args ++ [languageStandard] }, rfl, ?_⟩
    rw [base, run_bind_of_run hrun]
    rfl

/-- The words of a command with further arguments. -/
theorem words_withArgs (c : Command) (args : List String) :
    (c.withArgs args).words = c.words ++ args := rfl

/-- Where a unit has its executable and all units their objects, there is something to link. -/
theorem linkPlaces_error (m : Machine) (cfg : Config) (units : List CompilationUnit) (h : Host) :
    Leads (linkPlaces m cfg units) h fun r _ => ∀ e, r.1 = .error e →
      e = .nothingToLink ∨ ∃ cause, e = .unit cause := by
  induction units generalizing h with
  | nil =>
    intro e he
    cases he
    exact .inl rfl
  | cons u rest ih =>
    unfold linkPlaces
    split
    · exact Leads.bind (ih h) fun r h₁ hr => hr
    · refine Leads.skip fun r h₁ => ?_
      obtain ⟨r, u₁⟩ := r
      cases r with
      | error cause =>
        intro e he
        cases he
        exact .inr ⟨cause, rfl⟩
      | ok executable =>
        refine Leads.skip fun r h₂ => ?_
        obtain ⟨r, units⟩ := r
        cases r with
        | error cause =>
          intro e he
          cases he
          exact .inr ⟨cause, rfl⟩
        | ok objects =>
          intro e he
          cases he

/-- A toolset uses what it has chosen. -/
theorem uses_of_chosen {ts : Toolset} {words : List String} (hchosen : ts.chosen? = some words)
    (hne : words ≠ []) (m : Machine) : Uses m ts words := by
  refine ⟨compiler_settled hchosen m, fun u h => ?_, fun units h => ?_⟩
  · unfold compileCommand
    refine Leads.bind (CompilationUnit.object_made u h) fun r h₁ hobject => ?_
    obtain ⟨r, u₁⟩ := r
    cases r with
    | error cause =>
      refine ⟨rfl, fun e he => ?_, fun c hc => (by cases hc)⟩
      cases he
      exact ⟨cause, rfl⟩
    | ok object =>
      obtain ⟨c, hwords, hbase⟩ := base_of_answer hne (compiler_settled hchosen m h₁)
      refine (leads_bind _ _ _ _).mpr ((leads_of_run hbase _).mpr ?_)
      refine ⟨rfl, fun e he => (by cases he), fun c' hc' => ?_⟩
      cases hc'
      refine ⟨object, ?_, ?_⟩
      · show u₁.object? = some object
        rw [show u₁ = { u with object? := some object } from hobject.ok object rfl]
      · rw [words_withArgs, hwords, List.append_assoc, List.singleton_append]
        rfl
  · unfold linkCommand
    refine Leads.bind (linkPlaces_error m ts.config units h) fun r h₁ herror => ?_
    obtain ⟨r, units₁⟩ := r
    cases r with
    | error e =>
      refine ⟨rfl, fun e' he => ?_, fun c executable hc => (by cases hc)⟩
      cases he
      exact herror e rfl
    | ok places =>
      obtain ⟨executable, objects⟩ := places
      obtain ⟨c, hwords, hbase⟩ := base_of_answer hne (compiler_settled hchosen m h₁)
      refine (leads_bind _ _ _ _).mpr ((leads_of_run hbase _).mpr ?_)
      refine ⟨rfl, fun e he => (by cases he), fun c' executable' hc' => ?_⟩
      cases hc'
      refine ⟨objects, ?_⟩
      rw [words_withArgs, hwords, List.append_assoc, List.singleton_append]

/-- Whatever has been pushed and asked in vain, a toolset that is asked for its compiler answers
with its choice by the compiler that was asked for last. From an answer that names one the toolset
uses that, whatever is pushed later; an answer that names none leaves it as it was. -/
theorem compiler_settles {m : Machine} {cfg : Config} {calls : List Call} {ts ts' : Toolset}
    {answer : Except BuildToolError (List String)} {h h' : Host}
    (hcalls : Calls m (ofConfig cfg) calls ts) (hunanswered : ∀ c ∈ calls, c.choice? = none)
    (hrun : (ts.compiler m).run h = ((answer, ts'), h')) :
    Choice m cfg h (calls.flatMap Call.asked).getLast? answer ∧
      (∀ words, answer = .ok words →
        ∀ later ts'', Calls m ts' later ts'' → Uses m ts'' words) ∧
      ∀ e, answer = .error e → ts' = ts := by
  have hchoice := hcalls.choice hunanswered hrun
  obtain ⟨hnone, -⟩ := hcalls.unsettled rfl hunanswered
  have hts' : ts' = { ts with chosen? := answer.toOption } :=
    ((leads_of_run hrun _).mp (compiler_unsettled hnone m h)).2
  refine ⟨hchoice, fun words hwords later ts'' hlater => ?_, fun e he => ?_⟩
  · have hchosen : ts'.chosen? = some words := by rw [hts', hwords]; rfl
    exact uses_of_chosen (hlater.settled hchosen) (hchoice.ne_nil hwords) m
  · rw [hts', he]
    show { ts with chosen? := none } = ts
    rw [← hnone]

/-- A machine with a directory of programs, each of which ends well at once. -/
def willing : Machine where
  cwd := []
  environment := [("PATH", "/bin")]
  pid := 7
  time := 0
  accountHome := none
  execute _ fs := .ok { status := .exited 0, files := fs }

/-- A host without programs. -/
def lacking : Host where
  files := { entries := [(["bin"], .directory)] }

/-- A host with a compiler cache. -/
def caching : Host where
  files := { entries := [(["bin"], .directory), (["bin", "ccache"], .file [] true)] }

/-- A configuration that names no compiler. -/
def openConfig : Config := { cacheRoot := ⟨"/cache"⟩ }

/-- A compiler without words is asked for, which is in vain, and then another one. -/
def tardyCalls : List Call :=
  [.pushFlags ["-lm", "--hbcxx-cxx="] .early, .compiler (.error .emptyCompiler),
    .pushFlag "--hbcxx-cxx=cc -m32" .late]

/-- After those calls the toolset chooses what was asked for last, behind the compiler cache. -/
theorem compiler_settles_tardy :
    ∃ ts ts' h', Calls willing (ofConfig openConfig) tardyCalls ts ∧
      (ts.compiler willing).run caching = ((.ok ["ccache", "cc", "-m32"], ts'), h') ∧
      Choice willing openConfig caching (some "cc -m32") (.ok ["ccache", "cc", "-m32"]) ∧
      ∀ later ts'', Calls willing ts' later ts'' → Uses willing ts'' ["ccache", "cc", "-m32"] := by
  let ts₁ : Toolset := { ofConfig openConfig with flags := ["-lm"], asked? := some "" }
  let ts₂ : Toolset := { ts₁ with asked? := some "cc -m32" }
  have hpushed : (((ofConfig openConfig).pushFlags ["-lm", "--hbcxx-cxx="] .early).run lacking).1 =
      ts₁ := by decide +kernel
  have hvain : ((ts₁.compiler willing).run lacking).1 = (.error .emptyCompiler, ts₁) := by rfl
  have hasked : ((ts₁.pushFlag "--hbcxx-cxx=cc -m32" .late).run lacking).1 = ts₂ := by
    decide +kernel
  have hanswer : ((ts₂.compiler willing).run caching).1.1 = .ok ["ccache", "cc", "-m32"] := by rfl
  have hcalls : Calls willing (ofConfig openConfig) tardyCalls ts₂ :=
    .cons ⟨lacking, _, Prod.ext hpushed rfl⟩ (.cons ⟨lacking, _, Prod.ext hvain rfl⟩
      (.cons ⟨lacking, _, Prod.ext hasked rfl⟩ (.nil ts₂)))
  have hunanswered : ∀ c ∈ tardyCalls, c.choice? = none := by
    simp [tardyCalls, Call.choice?, Except.toOption]
  obtain ⟨⟨answer, ts'⟩, h', hrun⟩ := exists_run (ts₂.compiler willing) caching
  rw [hrun] at hanswer
  cases hanswer
  obtain ⟨hchoice, huses, -⟩ := compiler_settles hcalls hunanswered hrun
  exact ⟨ts₂, ts', h', hcalls, hrun, hchoice, huses _ rfl⟩

end CxxScript.Toolset

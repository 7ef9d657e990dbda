import CxxScript.Proofs.Build.Choosing

/-!
# Which commands are run

`Host.Ran` says which commands have been run between two hosts, in order. A place is found without
one, and to perform a command is to run that one and no other. What a command begins with needs
others only as long as no compiler has been chosen: by these a compiler cache is asked for and the
candidates are tried, `Toolset.base_begins`.
-/

set_option autoImplicit false

namespace CxxScript

open Host CompilationUnit

variable {m : Machine} {cfg : Config}

namespace Host

/-- From `h` to `h'` the commands `cs` have been run, one after the other, and no others. -/
def Ran (cs : List Command) (h h' : Host) : Prop :=
  ∃ es, h'.events = h.events ++ es ∧ es.filterMap Event.command? = cs

/-- What has been run in one stretch and then in another has been run in both. -/
theorem Ran.trans {cs cs' : List Command} {a b c : Host} (h : Ran cs a b) (h' : Ran cs' b c) :
    Ran (cs ++ cs') a c := by
  obtain ⟨es, he, rfl⟩ := h
  obtain ⟨es', he', rfl⟩ := h'
  exact ⟨es ++ es', by rw [he', he, List.append_assoc], List.filterMap_append⟩

/-- What has been run since a host has been run since one that has the same written down. -/
theorem Ran.of_events {cs : List Command} {h h₁ h₂ : Host} (he : h₁.events = h.events)
    (hr : Ran cs h₁ h₂) : Ran cs h h₂ := by
  obtain ⟨es, hes, hcs⟩ := hr
  exact ⟨es, by rw [hes, he], hcs⟩

/-- Where nothing is written down but what starts no command, nothing has been run. -/
theorem ran_nil {P : Event → Prop} {h h' : Host} (hw : Wrote P h h')
    (hP : ∀ e, P e → e.command? = none) : Ran [] h h' := by
  obtain ⟨es, he, hes⟩ := hw
  exact ⟨es, he, List.filterMap_eq_nil_iff.mpr fun e hmem => hP e (hes e hmem)⟩

/-- Where nothing is written down but what starts commands of a kind, commands of that kind have
been run. -/
theorem exists_ran {P : Command → Prop} {h h' : Host} (hw : Wrote (Event.RunsOnly P) h h') :
    ∃ cs, Ran cs h h' ∧ ∀ c ∈ cs, P c := by
  obtain ⟨es, he, hes⟩ := hw
  refine ⟨es.filterMap Event.command?, ⟨es, he, rfl⟩, fun c hc => ?_⟩
  obtain ⟨e, hmem, hstart⟩ := List.mem_filterMap.mp hc
  exact hes e hmem c hstart

/-- To run a command is to run that one and no other. -/
theorem ran_run (m : Machine) (c : Command) (h : Host) :
    Leads (run m c) h fun _ h' => Ran [c] h h' := by
  unfold run
  rw [leads_bind, leads_note]
  have hstart : Ran [c] h (h.noted (.running c)) := ⟨_, rfl, rfl⟩
  refine (wrote_runAttempt _ _ _ _).mono fun _ h' hw => hstart.trans (ran_nil hw ?_)
  rintro e ⟨stream, content, rfl⟩
  rfl

end Host

/-- Whether an error says that a header was to be compiled, or that there was nothing to link. -/
def BuildToolError.isMisuse : BuildToolError → Bool
  | .unit (.headerNotCompiled _) | .nothingToLink => true
  | _ => false

namespace Toolset

/-! ## Choosing a compiler -/

/-- How a toolset comes by the words that a command begins with: it has them from then on, and if it
has not had them before, trials have been run. -/
structure Begins (ts : Toolset) (words : List String) (choosing : List Command) (ts' : Toolset) :
    Prop where
  ne_nil : words ≠ []
  toolset : ts' = { ts with chosen? := some words }
  trials : ∀ c ∈ choosing, IsTrial ts.config.cacheRoot c
  settled : ∀ ws, ts.chosen? = some ws → ws = words ∧ choosing = []

/-- What a command begins with is the words that the toolset answers with when it is asked for its
compiler, and the language standard; it fails only for want of a compiler. -/
theorem base_begins (m : Machine) (ts : Toolset) (h : Host) :
    Leads (ts.base m) h fun r h' =>
      (∀ e, r.1 = .error e → e = .emptyCompiler ∨ e = .noCompiler) ∧
      ∀ c, r.1 = .ok c → ∃ words choosing, c.words = words ++ [languageStandard] ∧
        (Call.compiler (.ok words)).Made m ts r.2 ∧ Begins ts words choosing r.2 ∧
        Ran choosing h h' := by
  cases hchosen : ts.chosen? with
  | some words =>
    have hanswer := compiler_settled hchosen m h
    by_cases hnil : words = []
    · have hrun : (ts.base m).run h = ((.error .emptyCompiler, ts), h) := by
        rw [base, run_bind_of_run hanswer, hnil]
        rfl
      rw [leads_of_run hrun]
      refine ⟨fun e he => ?_, fun c hc => (by cases hc)⟩
      cases he
      exact .inl rfl
    · obtain ⟨c, hwords, hrun⟩ := base_of_answer hnil hanswer
      rw [leads_of_run hrun]
      refine ⟨fun e he => (by cases he), fun c' hc' => ?_⟩
      cases hc'
      refine ⟨words, [], hwords, ⟨h, h, hanswer⟩,
        ⟨hnil, ?_, fun c hc => (by cases hc), fun ws hws => ?_⟩,
        ran_nil (Wrote.of_eq (P := fun _ => False) rfl) fun _ hfalse => hfalse.elim⟩
      · rw [← hchosen]
      · rw [hchosen] at hws
        cases hws
        exact ⟨rfl, rfl⟩
  | none =>
    obtain ⟨⟨answer, ts'⟩, h', hanswer⟩ := exists_run (ts.compiler m) h
    obtain ⟨hchoice, hts'⟩ := (leads_of_run hanswer _).mp (compiler_unsettled hchosen m h)
    have hchoice : Choice m ts.config h ts.asked? answer := hchoice
    have hts' : ts' = { ts with chosen? := answer.toOption } := hts'
    cases answer with
    | error e =>
      have hrun : (ts.base m).run h = ((.error e, ts'), h') := by
        rw [base, run_bind_of_run hanswer]
        rfl
      rw [leads_of_run hrun]
      refine ⟨fun e' he => ?_, fun c hc => (by cases hc)⟩
      cases he
      exact hchoice.error rfl
    | ok words =>
      have hne := hchoice.ne_nil rfl
      obtain ⟨choosing, hran, htrials⟩ :=
        exists_ran ((leads_of_run hanswer _).mp (compiler_tries m ts h))
      obtain ⟨c, hwords, hrun⟩ := base_of_answer hne hanswer
      rw [leads_of_run hrun]
      refine ⟨fun e he => (by cases he), fun c' hc' => ?_⟩
      cases hc'
      refine ⟨words, choosing, hwords, ⟨h, h', hanswer⟩, ⟨hne, hts', htrials, fun ws hws => ?_⟩,
        hran⟩
      rw [hchosen] at hws
      cases hws

/-! ## Commands -/

/-- The words of the command that compiles a unit into an object. -/
def compileWords (words : List String) (ts : Toolset) (u : CompilationUnit) (object : Path) :
    List String :=
  words ++ [languageStandard, "-c", u.processedPath.text, "-o", object.text] ++ ts.flags ++
    u.privateFlags ++ ts.lateFlags

/-- The words of the command that links objects. -/
def linkWords (words : List String) (ts : Toolset) (executable : Path) (objects : List Path) :
    List String :=
  words ++ [languageStandard, "-o", executable.text] ++ objects.map Path.text ++ ts.flags

/-- What is in want of a compiler or of a place is no misuse. -/
theorem not_misuse_of_base {e : BuildToolError} (he : e = .emptyCompiler ∨ e = .noCompiler) :
    e.isMisuse = false := by
  rcases he with rfl | rfl <;> rfl

/-- The command that compiles a unit, and the object that the unit has then; what is run for it is
by which the compiler is chosen. A source can be compiled. -/
theorem compileCommand_ran (m : Machine) (ts : Toolset) (u : CompilationUnit) (h : Host) :
    Leads (ts.compileCommand m u) h fun r h' =>
      (u.isHeader = false → ∀ e, r.1 = .error e → e.isMisuse = false) ∧
      ∀ c, r.1 = .ok c → ∃ words choosing object, (Call.compiler (.ok words)).Made m ts r.2.1 ∧
        Begins ts words choosing r.2.1 ∧ r.2.2 = { u with object? := some object } ∧
        Ran choosing h h' ∧ c.words = compileWords words ts u object := by
  unfold compileCommand
  refine Leads.bind (object_made u h) fun r h₁ hobject => ?_
  obtain ⟨r, u₁⟩ := r
  cases r with
  | error cause =>
    refine ⟨fun hsource e he => ?_, fun c hc => by cases hc⟩
    obtain ⟨place, rfl⟩ := (hobject.error cause rfl).2 hsource
    cases he
    rfl
  | ok object =>
    have hu₁ : u₁ = { u with object? := some object } := hobject.ok object rfl
    refine Leads.bind (base_begins m ts h₁) fun r h₂ hr => ?_
    obtain ⟨herror, hbegins⟩ := hr
    obtain ⟨r, ts₂⟩ := r
    cases r with
    | error e =>
      refine ⟨fun _ e' he => ?_, fun c hc => by cases hc⟩
      cases he
      exact not_misuse_of_base (herror e rfl)
    | ok c =>
      refine ⟨fun _ e he => (by cases he), fun c' hc' => ?_⟩
      cases hc'
      obtain ⟨words, choosing, hwords, hmade, hb, hran⟩ := hbegins c rfl
      refine ⟨words, choosing, object, hmade, hb, hu₁, ?_, ?_⟩
      · refine (ran_nil hobject.wrote ?_).trans hran
        rintro e ⟨p, place, rfl⟩
        rfl
      · have hts₂ : ts₂ = { ts with chosen? := some words } := hb.toolset
        rw [words_withArgs, hwords, hu₁, hts₂]
        simp [compileWords, compileArgs, processedPath]

/-- The words of the command that links units begin with what the toolset answers. -/
theorem linkCommand_made (m : Machine) (ts : Toolset) (units : List CompilationUnit) (h : Host) :
    Leads (ts.linkCommand m units) h fun r _ => ∀ c p, r.1 = .ok (c, p) → ∃ words objects,
      (Call.compiler (.ok words)).Made m ts r.2.1 ∧ c.words = linkWords words ts p objects := by
  unfold linkCommand
  refine Leads.skip fun r h₁ => ?_
  obtain ⟨r, units₁⟩ := r
  cases r with
  | error e =>
    intro c p hc
    cases hc
  | ok places =>
    obtain ⟨executable, objects⟩ := places
    refine Leads.bind (base_begins m ts h₁) fun r h₂ hr => ?_
    obtain ⟨-, hbegins⟩ := hr
    obtain ⟨r, ts₂⟩ := r
    cases r with
    | error e =>
      intro c p hc
      cases hc
    | ok c =>
      intro c' p hc'
      cases hc'
      obtain ⟨words, choosing, hwords, hmade, hb, -⟩ := hbegins c rfl
      refine ⟨words, objects, hmade, ?_⟩
      have hts₂ : ts₂ = { ts with chosen? := some words } := hb.toolset
      rw [words_withArgs, hwords, hts₂]
      simp [linkWords, linkArgs]

end Toolset

end CxxScript

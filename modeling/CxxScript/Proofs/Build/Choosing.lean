import CxxScript.Proofs.Build.Effects
import CxxScript.Proofs.Build.Resolving

/-!
# What choosing a compiler writes down

The only commands that are run to choose a compiler are trials: a compiler cache is asked for, and
the candidates are tried, `Toolset.compiler_tries`. Where no compiler is named, one is looked for:
in the record of an earlier choice, else among the candidates. Neither can be done without something
about compilers being written down, whether it goes well or not, `Toolset.resolve_told`. So where
nothing of the kind has been written down, the record has been neither read nor written.
-/

set_option autoImplicit false

namespace CxxScript

open Host

/-- The command that an event is the start of. -/
def Event.command? : Event → Option Command
  | .note (.running c) => some c
  | _ => none

/-- The event is the start of no command but one of a kind. -/
def Event.RunsOnly (P : Command → Prop) (e : Event) : Prop := ∀ c, e.command? = some c → P c

/-- An event that is the start of no command is the start of none but those of a kind. -/
theorem Event.runsOnly_of_none {P : Command → Prop} {e : Event} (he : e.command? = none) :
    e.RunsOnly P := by
  intro c hc
  rw [he] at hc
  cases hc

/-- Whether an event tells of the choice of a compiler, of looking for one, or of the record of an
earlier choice. -/
def Event.isOfTools : Event → Bool
  | .note (.cachedToolchain _) | .note (.usingCompiler _) | .note (.probing ..) => true
  | .warning (.unreadableRecord _) | .warning (.choiceNotRemembered _) => true
  | .warning (.cannotCreate ..) | .warning (.cannotWrite ..) | .warning .noCompilerCache => true
  | _ => false

namespace Toolset

/-- Whether a command is one by which a compiler is chosen: it asks for a compiler cache, or tries a
candidate. -/
def IsTrial (root : Path) (c : Command) : Prop :=
  c = cacheQuery ∨ ∃ compiler ∈ candidates, c = trial root compiler

/-- No commands have been run but trials. -/
abbrev Tries (root : Path) (h h' : Host) : Prop := Wrote (Event.RunsOnly (IsTrial root)) h h'

/-- Something about compilers has been written down. -/
def Told (h h' : Host) : Prop := ∃ es, h'.events = h.events ++ es ∧ ∃ e ∈ es, e.isOfTools = true

variable {root : Path}

/-- One event that starts no command. -/
theorem Tries.single {h h' : Host} {e : Event} (he : h'.events = h.events ++ [e])
    (hnone : e.command? = none) : Tries root h h' := Wrote.single he (Event.runsOnly_of_none hnone)

/-- What is told of later is told of. -/
theorem Told.after {P : Event → Prop} {a b c : Host} (hw : Wrote P a b) (ht : Told b c) :
    Told a c := by
  obtain ⟨es, hes, -⟩ := hw
  obtain ⟨es', hes', e, he, hof⟩ := ht
  refine ⟨es ++ es', by rw [hes', hes, List.append_assoc], e, ?_, hof⟩
  exact List.mem_append_right _ he

/-- What has been told of stays. -/
theorem Told.before {P : Event → Prop} {a b c : Host} (ht : Told a b) (hw : Wrote P b c) :
    Told a c := by
  obtain ⟨es, hes, e, he, hof⟩ := ht
  obtain ⟨es', hes', -⟩ := hw
  refine ⟨es ++ es', by rw [hes', hes, List.append_assoc], e, ?_, hof⟩
  exact List.mem_append_left _ he

/-- One event about compilers. -/
theorem Told.single {h h' : Host} {e : Event} (he : h'.events = h.events ++ [e])
    (hof : e.isOfTools = true) : Told h h' := ⟨[e], he, e, by simp, hof⟩

/-- A query that is a trial is one. -/
theorem tries_capture {c : Command} (hc : IsTrial root c) (m : Machine) (h : Host) :
    Leads (capture m c) h fun _ h' => Tries root h h' :=
  (Package.wrote_capture m c h).mono fun _ _ hw => hw.mono fun e he => by
    rcases he with rfl | ⟨content, rfl⟩
    · rintro c' hc'
      cases hc'
      exact hc
    · exact Event.runsOnly_of_none rfl

/-- Writing a file runs nothing. -/
theorem tries_write (root : Path) (m : Machine) (p : Path) (bytes : Bytes) (h : Host) :
    Leads (Host.write m p bytes) h fun _ h' => Tries root h h' :=
  (Host.wrote_write m p bytes h).mono fun _ _ hw => hw.mono fun e ⟨_, _, he⟩ =>
    Event.runsOnly_of_none (by rw [he]; rfl)

/-- Asking for a compiler cache runs a trial. -/
theorem tries_findCache (root : Path) (m : Machine) (h : Host) :
    Leads (findCache m) h fun _ h' => Tries root h h' := by
  have hwarn : ∀ h₁ : Host, Leads (warn .noCompilerCache) h₁ fun _ h₂ => Tries root h₁ h₂ :=
    fun h₁ => Tries.single rfl rfl
  have hquery : IsTrial root cacheQuery := .inl rfl
  unfold findCache
  refine Leads.bind (tries_capture hquery m h) fun r h₁ hw => ?_
  split
  · split
    · exact hw
    · exact Leads.bind (hwarn h₁) fun _ h₂ hw' => hw.trans hw'
  · exact Leads.bind (hwarn h₁) fun _ h₂ hw' => hw.trans hw'

/-- Trying a candidate runs a trial and is told of. -/
theorem isUsable_told {compiler : String} (hc : compiler ∈ candidates) (m : Machine) (h : Host) :
    Leads (isUsable m root compiler) h fun _ h' => Told h h' ∧ Tries root h h' := by
  unfold isUsable
  refine Leads.bind (P := fun _ h₁ => h₁.events = h.events) rfl fun r h₁ he => ?_
  have hmade : Tries root h h₁ := .of_eq he
  cases r with
  | error cause => exact ⟨.after hmade (.single rfl rfl), hmade.trans (Tries.single rfl rfl)⟩
  | ok _ =>
    refine Leads.bind (tries_write root m _ _ h₁) fun r h₂ hw => ?_
    have hwritten : Tries root h h₂ := hmade.trans hw
    cases r with
    | error cause =>
      exact ⟨.after hwritten (.single rfl rfl), hwritten.trans (Tries.single rfl rfl)⟩
    | ok _ =>
      have htrial : IsTrial root (trial root compiler) := .inr ⟨compiler, hc, rfl⟩
      refine Leads.bind (tries_capture htrial m h₂) fun r h₃ hw => ?_
      refine Leads.bind (P := fun _ h₄ => h₄.events = h₃.events) (events_change _ h₃)
        fun _ h₄ he₄ => ?_
      have htried : Tries root h h₄ := hwritten.trans (hw.trans (.of_eq he₄))
      exact ⟨.after htried (.single rfl rfl), htried.trans (Tries.single rfl rfl)⟩

/-- Trying candidates runs trials. -/
theorem tries_firstUsable {compilers : List String} (hsub : compilers ⊆ candidates) (m : Machine)
    (h : Host) : Leads (firstUsable m root compilers) h fun _ h' => Tries root h h' := by
  induction compilers generalizing h with
  | nil => exact .of_eq rfl
  | cons compiler rest ih =>
    obtain ⟨hfirst, hrest⟩ := List.cons_subset.mp hsub
    unfold firstUsable
    refine Leads.bind (isUsable_told hfirst m h) fun usable h₁ ht => ?_
    split
    · exact ht.2
    · exact (ih hrest h₁).mono fun _ _ hw => ht.2.trans hw

/-- There is a first candidate, so trying them all is told of. -/
theorem firstUsable_told (m : Machine) (h : Host) :
    Leads (firstUsable m root candidates) h fun _ h' => Told h h' ∧ Tries root h h' := by
  have hsub : candidates ⊆ candidates := List.Subset.refl _
  rw [candidates] at hsub ⊢
  obtain ⟨hfirst, hrest⟩ := List.cons_subset.mp hsub
  unfold firstUsable
  refine Leads.bind (isUsable_told hfirst m h) fun usable h₁ ht => ?_
  split
  · exact ht
  · exact (tries_firstUsable hrest m h₁).mono fun _ _ hw => ⟨ht.1.before hw, ht.2.trans hw⟩

/-- Remembering a choice runs nothing. -/
theorem tries_store (m : Machine) (record : ToolchainRecord) (h : Host) :
    Leads (record.store m root) h fun _ h' => Tries root h h' := by
  unfold ToolchainRecord.store
  refine Leads.bind (P := fun _ h₁ => h₁.events = h.events) rfl fun r h₁ he => ?_
  have hmade : Tries root h h₁ := .of_eq he
  cases r with
  | error cause => exact hmade
  | ok _ => exact Leads.bind (tries_write root m _ _ h₁) fun _ h₂ hw => hmade.trans hw

/-- Looking for a compiler runs trials and is told of. -/
theorem probe_told (m : Machine) (h : Host) :
    Leads (probe m root) h fun _ h' => Told h h' ∧ Tries root h h' := by
  unfold probe
  refine Leads.bind (tries_findCache root m h) fun ccache h₁ hw₁ => ?_
  refine Leads.bind (firstUsable_told m h₁) fun found h₂ ht => ?_
  have htold : Told h h₂ := .after hw₁ ht.1
  have htried : Tries root h h₂ := hw₁.trans ht.2
  cases found with
  | none => exact ⟨htold, htried⟩
  | some compiler =>
    refine Leads.bind (tries_store m _ h₂) fun r h₃ hw₃ => ?_
    cases r with
    | error cause =>
      have hwarned : Leads (warn (.choiceNotRemembered cause.message)) h₃ fun _ h₄ =>
          Tries root h₂ h₄ := hw₃.trans (Tries.single rfl rfl)
      exact Leads.bind hwarned fun _ h₄ hw₄ => ⟨htold.before hw₄, htried.trans hw₄⟩
    | ok _ => exact ⟨htold.before hw₃, htried.trans hw₃⟩

/-- Looking a choice up runs nothing; where there is one, that is told of. -/
theorem lookup_told (m : Machine) (h : Host) :
    Leads (ToolchainRecord.lookup m root) h fun r h' =>
      Tries root h h' ∧ (r.isSome = true → Told h h') := by
  unfold ToolchainRecord.lookup
  rw [leads_bind, leads_get]
  split
  · exact ⟨.of_eq rfl, fun hs => by cases hs⟩
  · split
    · exact ⟨Tries.single rfl rfl, fun _ => .single rfl rfl⟩
    · exact ⟨Tries.single rfl rfl, fun hs => by cases hs⟩

/-- The record of an earlier choice is never read or written unnoticed: where no compiler is named,
choosing one runs trials and writes down something about compilers. -/
theorem resolve_told (m : Machine) {ts : Toolset} (hcxx : ts.config.cxx = none)
    (hasked : ts.asked? = none) (h : Host) :
    Leads (ts.resolve m) h fun _ h' => Told h h' ∧ Tries ts.config.cacheRoot h h' := by
  unfold resolve
  rw [hcxx, hasked]
  dsimp only
  refine Leads.bind (lookup_told m h) fun r h₁ ⟨hw, ht⟩ => ?_
  cases r with
  | some record => exact ⟨ht rfl, hw⟩
  | none => exact (probe_told m h₁).mono fun _ _ hr => ⟨.after hw hr.1, hw.trans hr.2⟩

/-- No commands are run to choose a compiler but trials. -/
theorem compiler_tries (m : Machine) (ts : Toolset) (h : Host) :
    Leads (ts.compiler m) h fun _ h' => Tries ts.config.cacheRoot h h' := by
  have hresolve : Leads (ts.resolve m) h fun _ h' => Tries ts.config.cacheRoot h h' := by
    cases hcxx : ts.config.cxx with
    | some compiler =>
      unfold resolve
      rw [hcxx]
      exact .of_eq rfl
    | none =>
      cases hasked : ts.asked? with
      | some asked =>
        unfold resolve
        rw [hcxx, hasked]
        exact Leads.bind (tries_findCache _ m h) fun _ h₁ hw => hw
      | none => exact (resolve_told m hcxx hasked h).mono fun _ _ hr => hr.2
  unfold compiler
  split
  · exact .of_eq rfl
  · refine Leads.bind hresolve fun r h₁ hw => ?_
    cases r with
    | error e => exact hw
    | ok words => exact hw.trans (Tries.single rfl rfl)

end Toolset

end CxxScript

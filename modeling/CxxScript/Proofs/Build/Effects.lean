import CxxScript.Proofs.Build.Placing
import CxxScript.Proofs.Build.Scanning
import CxxScript.Proofs.Host.Programs

/-!
# What the steps of a scan do to the host

Three relations between hosts that the steps of a scan keep. Reading a file changes no file as long
as the package queries change none, `stillFrame`; a whole scan lets the files grow, `growthFrame`;
and what a scan writes down after it has begun is never the beginning of another scan,
`singleFrame`.
-/

set_option autoImplicit false

namespace CxxScript

open Host

/-! ## Finding places -/

namespace Placement

/-- Finding a place makes the files grow. -/
theorem grows_find (m : Machine) (root p : Path) (h : Host) :
    Leads (find m root p) h fun _ h' => h.files.Grows h'.files := by
  have hdirectory := Files.grows_withDirectory h.files m.cwd (mirrored m root p h)
  refine (find_settles m root p h).mono fun r h' hsettles => ?_
  cases hsettles with
  | beside ho => exact Files.grows_openAppend ho
  | below _ ho => exact hdirectory.trans (Files.grows_openAppend ho)
  | nowhere => exact hdirectory

/-- Whether an event tells that a file had to be put somewhere else. -/
def IsMove (e : Event) : Prop := ∃ p place, e = .note (.relocated p place)

/-- All that finding a place writes down is that the file had to be put somewhere else. -/
theorem wrote_find (m : Machine) (root p : Path) (h : Host) :
    Leads (find m root p) h fun _ h' => Wrote IsMove h h' := by
  refine (find_settles m root p h).mono fun r h' hsettles => ?_
  cases hsettles with
  | beside => exact .of_eq rfl
  | below => exact .single rfl ⟨_, _, rfl⟩
  | nowhere => exact .of_eq rfl

end Placement

namespace CompilationUnit

/-- Opening the copy of a unit makes the files grow. -/
theorem grows_openCopy (m : Machine) (cfg : Config) (u : CompilationUnit) (h : Host) :
    Leads (u.openCopy m cfg) h fun _ h' => h.files.Grows h'.files := by
  unfold openCopy
  split
  · exact .refl _
  · refine Leads.bind (Placement.grows_find m _ _ h) fun r h₁ hg => ?_
    cases r with
    | error cause => exact hg
    | ok place => exact Leads.bind (grows_create m _ h₁) fun _ h₂ hg' => hg.trans hg'

/-- All that opening the copy of a unit writes down is that it had to be put somewhere else. -/
theorem wrote_openCopy (m : Machine) (cfg : Config) (u : CompilationUnit) (h : Host) :
    Leads (u.openCopy m cfg) h fun _ h' => Wrote Placement.IsMove h h' := by
  unfold openCopy
  split
  · exact .of_eq rfl
  · refine Leads.bind (Placement.wrote_find m _ _ h) fun r h₁ hw => ?_
    cases r with
    | error cause => exact hw
    | ok place =>
      exact Leads.bind (events_change _ h₁) fun _ h₂ he => hw.trans (.of_eq he)

end CompilationUnit

/-- All that writing a file writes down is what goes to a descriptor of the tool. -/
theorem Host.wrote_write (m : Machine) (p : Path) (bytes : Bytes) (h : Host) :
    Leads (write m p bytes) h fun _ h' =>
      Wrote (fun e => ∃ stream content, e = .bytes stream content) h h' := by
  unfold write
  refine Leads.bind (P := fun _ h₁ => h₁.events = h.events) (events_change _ h) fun r h₁ he => ?_
  cases r with
  | error cause => exact .of_eq he
  | ok at_ =>
    refine Leads.mono (P := fun _ h₂ =>
      Wrote (fun e => ∃ stream content, e = .bytes stream content) h₁ h₂) ?_
      fun _ _ hw => Wrote.trans (.of_eq he) hw
    unfold append
    rw [leads_bind, leads_get]
    split
    · split
      · exact .single rfl ⟨_, _, rfl⟩
      · exact .of_eq rfl
    · exact .of_eq (events_change _ h₁)

/-! ## Asking for packages -/

namespace Package

/-- Whether a command is one of the two questions that are put to a query command. -/
def IsQuestion (command : String) (c : Command) : Prop :=
  ∃ base requirement, Command.ofText? command = some base ∧
    (c = base.withArgs (existsArgs requirement) ∨ c = base.withArgs (flagsArgs requirement))

/-- Whether an event is what asking for packages leaves: the start of a query, or what a query says
on standard error. -/
def IsQuery (command : String) (e : Event) : Prop :=
  (∃ c, IsQuestion command c ∧ e = .note (.running c)) ∨ ∃ content, e = .bytes .error content

/-- Running a query writes down its start and what it says on standard error. -/
theorem wrote_capture (m : Machine) (c : Command) (h : Host) :
    Leads (Host.capture m c) h fun _ h' =>
      Wrote (fun e => e = .note (.running c) ∨ ∃ content, e = .bytes .error content) h h' := by
  unfold Host.capture
  rw [leads_bind, leads_note, leads_bind, leads_get]
  have hstart : Wrote (fun e => e = .note (.running c) ∨ ∃ content, e = .bytes .error content) h
      (h.noted (.running c)) := .single rfl (.inl rfl)
  split
  · exact hstart
  · next o _ =>
    rw [leads_bind, leads_modify]
    refine hstart.trans ⟨_, settle_events _, ?_⟩
    intro e he
    obtain ⟨w, hw, rfl⟩ := List.mem_map.mp he
    have hs := (List.mem_filter.mp hw).2
    rw [Bool.and_eq_true] at hs
    exact .inr ⟨w.2, by rw [of_decide_eq_true hs.1]⟩

/-- Asking for packages writes down the queries and what they say. -/
theorem wrote_flagsFor (m : Machine) (command requirement : String) (h : Host) :
    Leads (flagsFor m command requirement) h fun _ h' => Wrote (IsQuery command) h h' := by
  have hquery : ∀ c, IsQuestion command c → ∀ h,
      Leads (query m c) h fun _ h' => Wrote (IsQuery command) h h' := by
    intro c hc h
    unfold query
    refine Leads.bind (wrote_capture m c h) fun r h' hw => ?_
    have hasked : Wrote (IsQuery command) h h' :=
      hw.mono fun e he => he.imp (fun heq => ⟨c, hc, heq⟩) id
    split <;> exact hasked
  unfold flagsFor
  split
  · exact .of_eq rfl
  · next base hbase =>
    have hexists : IsQuestion command (base.withArgs (existsArgs requirement)) :=
      ⟨base, requirement, hbase, .inl rfl⟩
    have hflags : IsQuestion command (base.withArgs (flagsArgs requirement)) :=
      ⟨base, requirement, hbase, .inr rfl⟩
    refine Leads.bind (hquery _ hexists h) fun r h₁ hw₁ => ?_
    split
    · exact hw₁
    · split
      · exact hw₁
      · refine Leads.bind (hquery _ hflags h₁) fun r h₂ hw₂ => ?_
        split
        · exact hw₁.trans hw₂
        · split <;> exact hw₁.trans hw₂

end Package

/-! ## The relations -/

variable {m : Machine} {cfg : Config}

/-- While a file is read no file changes. -/
theorem stillFrame (hq : Package.KeepsFiles m cfg.pkgConfig) :
    Scan.Frame m cfg fun h h' => h'.files = h.files where
  refl _ := rfl
  trans h h' := h'.trans h
  emit _ _ _ := rfl
  poll _ := rfl
  query := hq

/-- During a scan the files grow. -/
theorem growthFrame (hq : Package.KeepsFiles m cfg.pkgConfig) :
    ScanFrame m cfg fun h h' => h.files.Grows h'.files where
  refl _ := .refl _
  trans := .trans
  emit _ _ _ := .refl _
  poll _ := .refl _
  query requirement h := (hq requirement h).mono fun _ _ he => he ▸ .refl _
  openCopy := CompilationUnit.grows_openCopy m cfg
  append := grows_append

/-- Whether an event is the beginning of a scan, and of which file. -/
def Event.scanned? : Event → Option Path
  | .note (.scanning p) => some p
  | _ => none

/-- The files whose scans have begun, in order. -/
def Host.scans (h : Host) : List Path := h.events.filterMap Event.scanned?

/-- Events that begin no scan leave the scans as they are. -/
theorem Host.scans_of_wrote {h h' : Host} (hw : Wrote (fun e => e.scanned? = none) h h') :
    h'.scans = h.scans := by
  obtain ⟨es, he, hP⟩ := hw
  have hnone : es.filterMap Event.scanned? = [] := List.filterMap_eq_nil_iff.mpr hP
  rw [scans, scans, he, List.filterMap_append, hnone, List.append_nil]

/-- A scan writes down nothing but its own notes and reports, the queries and what they say, that a
file had to be put somewhere else, and what goes to a descriptor of the tool. -/
theorem wroteFrame {P : Event → Prop} (m : Machine) (hscan : ∀ e, e.isOfScan = true → P e)
    (hquery : ∀ e, Package.IsQuery cfg.pkgConfig e → P e)
    (hmove : ∀ e, Placement.IsMove e → P e) (hbytes : ∀ stream content, P (.bytes stream content)) :
    ScanFrame m cfg (Wrote P) where
  refl _ := .of_eq rfl
  trans := .trans
  emit e _ he := .single rfl (hscan e he)
  poll _ := .of_eq rfl
  query requirement h := (Package.wrote_flagsFor m _ requirement h).mono fun _ _ hw =>
    hw.mono hquery
  openCopy u h := (CompilationUnit.wrote_openCopy m cfg u h).mono fun _ _ hw => hw.mono hmove
  append at_ bytes h := by
    unfold Host.append
    rw [leads_bind, leads_get]
    split
    · split
      · exact Wrote.single rfl (hbytes _ _)
      · exact .of_eq rfl
    · exact .of_eq (events_change _ h)

/-- A scan begins no other scan. -/
theorem singleFrame (m : Machine) (cfg : Config) :
    ScanFrame m cfg (Wrote fun e => e.scanned? = none) := by
  refine wroteFrame m ?scan ?query ?move fun _ _ => rfl
  case scan =>
    intro e he
    cases e with
    | note n => cases n <;> first | rfl | cases he
    | bytes _ _ => rfl
    | warning _ => rfl
    | diagnostic _ => rfl
  case query =>
    rintro e (⟨c, -, rfl⟩ | ⟨content, rfl⟩) <;> rfl
  case move =>
    rintro e ⟨p, place, rfl⟩
    rfl

end CxxScript

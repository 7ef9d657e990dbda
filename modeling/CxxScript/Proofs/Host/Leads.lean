import CxxScript.Host.Storage
import CxxScript.Proofs.Host.Growth

/-!
# What a step of a host leads to

The work of the tool is a function on hosts, written in steps. `Host.Leads x h Q` says that `Q`
holds of the result of `x` and of the host it leaves when it starts from `h`. There is one rule for
each way in which steps are put together, so a proof about a longer piece of work follows its text
from the first step to the last. The steps that touch the files are shown to make them grow.
-/

set_option autoImplicit false

namespace CxxScript.Host

variable {α β : Type}

/-- Running `x` from `h` leads to a result and a host of which `Q` holds. -/
def Leads (x : StateM Host α) (h : Host) (Q : α → Host → Prop) : Prop :=
  Q (x.run h).1 (x.run h).2

/-- What a sequence leads to is what its second part leads to from where the first part ends. -/
theorem leads_bind (x : StateM Host α) (f : α → StateM Host β) (h : Host)
    (Q : β → Host → Prop) :
    Leads (x >>= f) h Q ↔ Leads x h fun a h' => Leads (f a) h' Q := Iff.rfl

/-- Looking at the host changes nothing. -/
theorem leads_get (h : Host) (Q : Host → Host → Prop) : Leads get h Q ↔ Q h h := Iff.rfl

/-- Changing the host. -/
theorem leads_modify (f : Host → Host) (h : Host) (Q : Unit → Host → Prop) :
    Leads (modify f) h Q ↔ Q () (f h) := Iff.rfl

/-- The host after a step has been written down. -/
def noted (h : Host) (n : Note) : Host := { h with events := h.events ++ [.note n] }

/-- Writing a step down. -/
theorem leads_note (n : Note) (h : Host) (Q : Unit → Host → Prop) :
    Leads (note n) h Q ↔ Q () (h.noted n) := Iff.rfl

/-- The host after its signals have changed. -/
def signalled (h : Host) (f : Signals → Signals) : Host :=
  settle { h with signals := f h.signals }

/-- Changing the signals. -/
theorem leads_modifySignals (f : Signals → Signals) (h : Host) (Q : Unit → Host → Prop) :
    Leads (modifySignals f) h Q ↔ Q () (h.signalled f) := Iff.rfl

/-- A run that is known leads to its result. -/
theorem leads_of_run {x : StateM Host α} {h h' : Host} {a : α} (hx : x.run h = (a, h'))
    (Q : α → Host → Prop) : Leads x h Q ↔ Q a h' := by
  rw [Leads, hx]

/-- A run has a result and leaves a host. -/
theorem exists_run (x : StateM Host α) (h : Host) : ∃ a h', x.run h = (a, h') := ⟨_, _, rfl⟩

/-- A sequence goes on from where its first part ends. -/
theorem run_bind_of_run {x : StateM Host α} {h h' : Host} {a : α} (hx : x.run h = (a, h'))
    (f : α → StateM Host β) : (x >>= f).run h = (f a).run h' := by
  show (f (x.run h).1).run (x.run h).2 = _
  rw [hx]

/-- What follows from where a step leads to holds there too. -/
theorem Leads.mono {x : StateM Host α} {h : Host} {P Q : α → Host → Prop}
    (hx : Leads x h P) (hPQ : ∀ a h', P a h' → Q a h') : Leads x h Q := hPQ _ _ hx

/-- A sequence leads to `Q` when its first part leads to where the second part leads to `Q`. -/
theorem Leads.bind {x : StateM Host α} {f : α → StateM Host β} {h : Host}
    {P : α → Host → Prop} {Q : β → Host → Prop} (hx : Leads x h P)
    (hf : ∀ a h', P a h' → Leads (f a) h' Q) : Leads (x >>= f) h Q := hf _ _ hx

/-- A sequence leads to `Q` when its second part does from wherever the first part ends. -/
theorem Leads.skip {x : StateM Host α} {f : α → StateM Host β} {h : Host} {Q : β → Host → Prop}
    (hf : ∀ a h', Leads (f a) h' Q) : Leads (x >>= f) h Q := hf _ _

/-! ## Steps under which the files grow -/

/-- A change that fails leaves the host as it was. -/
theorem run_change_error {step : Files → Except IoError (α × Files)} {h : Host} {e : IoError}
    (hs : step h.files = .error e) : (change step).run h = (.error e, h) := by
  simp only [change, modifyGet, StateT.run, StateT.modifyGet, MonadStateOf.modifyGet, hs]
  rfl

/-- A change that goes well changes the files alone. -/
theorem run_change_ok {step : Files → Except IoError (α × Files)} {h : Host} {r : α × Files}
    (hs : step h.files = .ok r) : (change step).run h = (.ok r.1, { h with files := r.2 }) := by
  simp only [change, modifyGet, StateT.run, StateT.modifyGet, MonadStateOf.modifyGet, hs]
  rfl

/-- Removing a file changes the files alone, or nothing. -/
theorem run_remove (m : Machine) (p : Path) (h : Host) :
    (∃ fs, h.files.remove m.cwd p = .ok fs ∧
      (remove m p).run h = (.ok (), { h with files := fs })) ∨
    ∃ cause, h.files.remove m.cwd p = .error cause ∧
      (remove m p).run h = (.error cause, h) := by
  unfold remove
  cases hr : h.files.remove m.cwd p with
  | error cause => exact .inr ⟨cause, rfl, run_change_error (by rw [hr]; rfl)⟩
  | ok fs => exact .inl ⟨fs, rfl, run_change_ok (r := ((), fs)) (by rw [hr]; rfl)⟩

/-- A change to the files brings them into a relation that they have to themselves, when each change
that goes well does. -/
theorem relates_change {R : Files → Files → Prop} {step : Files → Except IoError (α × Files)}
    {h : Host} (hrefl : R h.files h.files)
    (hstep : ∀ {a fs}, step h.files = .ok (a, fs) → R h.files fs) :
    Leads (change step) h fun _ h' => R h.files h'.files := by
  cases hs : step h.files with
  | error e =>
    rw [leads_of_run (run_change_error hs)]
    exact hrefl
  | ok r =>
    rw [leads_of_run (run_change_ok hs)]
    exact hstep hs

/-- Creating a file. -/
theorem grows_create (m : Machine) (p : Path) (h : Host) :
    Leads (create m p) h fun _ h' => h.files.Grows h'.files :=
  relates_change (.refl _) fun hs => Files.grows_create hs

/-- Adding bytes to what has been opened. -/
theorem grows_append (at_ : Location) (bytes : Bytes) (h : Host) :
    Leads (append at_ bytes) h fun _ h' => h.files.Grows h'.files := by
  unfold append
  rw [leads_bind, leads_get]
  split
  · split
    · exact .refl _
    · exact .refl _
  · refine relates_change (.refl _) fun {a fs} hs => ?_
    cases ha : h.files.append at_ bytes with
    | error e => rw [ha] at hs; cases hs
    | ok fs' => rw [ha] at hs; cases hs; exact Files.grows_append ha

/-! ## What is written down -/

/-- From `h` to `h'` only events of which `P` holds have been written down. -/
def Wrote (P : Event → Prop) (h h' : Host) : Prop :=
  ∃ es, h'.events = h.events ++ es ∧ ∀ e ∈ es, P e

/-- Nothing has been written down. -/
theorem Wrote.of_eq {P : Event → Prop} {h h' : Host} (he : h'.events = h.events) :
    Wrote P h h' := ⟨[], by simp [he], by simp⟩

/-- One event has been written down. -/
theorem Wrote.single {P : Event → Prop} {h h' : Host} {e : Event}
    (he : h'.events = h.events ++ [e]) (hP : P e) : Wrote P h h' :=
  ⟨[e], he, by simpa using hP⟩

/-- What was written in one stretch and then in another was written in both. -/
theorem Wrote.trans {P : Event → Prop} {a b c : Host} (h : Wrote P a b) (h' : Wrote P b c) :
    Wrote P a c := by
  obtain ⟨es, he, hP⟩ := h
  obtain ⟨es', he', hP'⟩ := h'
  refine ⟨es ++ es', by rw [he', he, List.append_assoc], ?_⟩
  intro e hm
  rcases List.mem_append.mp hm with hm | hm
  · exact hP e hm
  · exact hP' e hm

/-- Events of a narrower kind are events of a wider one. -/
theorem Wrote.mono {P Q : Event → Prop} {h h' : Host} (hw : Wrote P h h')
    (hPQ : ∀ e, P e → Q e) : Wrote Q h h' := by
  obtain ⟨es, he, hP⟩ := hw
  exact ⟨es, he, fun e hm => hPQ e (hP e hm)⟩

/-- Noting the end of the tool writes nothing down. -/
theorem settle_events (h : Host) : h.settle.events = h.events := by
  unfold settle
  split <;> rfl

/-- Noting the end of the tool changes no file. -/
theorem settle_files (h : Host) : h.settle.files = h.files := by
  unfold settle
  split <;> rfl

/-- The signals are as they have been changed. -/
theorem signalled_signals (h : Host) (f : Signals → Signals) :
    (h.signalled f).signals = f h.signals := settle_signals _

/-- A change of the signals changes no file. -/
theorem signalled_files (h : Host) (f : Signals → Signals) : (h.signalled f).files = h.files :=
  settle_files _

/-- A change to the files writes nothing down and leaves the signals as they are. -/
theorem still_change (step : Files → Except IoError (α × Files)) (h : Host) :
    Leads (change step) h fun _ h' => h'.events = h.events ∧ h'.signals = h.signals := by
  cases hs : step h.files with
  | error e =>
    rw [leads_of_run (run_change_error hs)]
    exact ⟨rfl, rfl⟩
  | ok r =>
    rw [leads_of_run (run_change_ok hs)]
    exact ⟨rfl, rfl⟩

/-- A change to the files writes nothing down. -/
theorem events_change (step : Files → Except IoError (α × Files)) (h : Host) :
    Leads (change step) h fun _ h' => h'.events = h.events := (still_change step h).1

end CxxScript.Host

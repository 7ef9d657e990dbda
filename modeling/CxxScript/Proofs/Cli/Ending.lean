import CxxScript.Proofs.Build.Launching
import CxxScript.Proofs.Build.Working
import CxxScript.Proofs.Cli.Leftovers
import CxxScript.Proofs.Host.Masking
import Mathlib.Data.List.Nodup

/-!
# The tool ends as the program ended

While a script is built and its program runs the interrupts are blocked, and nothing is pending that
is not blocked: `maskFrame`. So an exit code is handed on with the interrupts that are pending
discarded and no other signal let through, `exits`; and the signal that has ended the program is the
only one that is let through when it is raised again, `dies`. `execute_ends_as_program` says so for
a run from its start, by which time the executable has been removed.
-/

set_option autoImplicit false

namespace CxxScript

open Host

/-! ## Signals that are let through -/

namespace Signals

variable {s : Signals} {t : Signal}

/-- Whatever is pending is blocked. -/
def Sane (s : Signals) : Prop := ∀ t, s.pending t = true → s.blocked t = true

/-- A change of the mask leaves nothing pending that is not blocked. -/
theorem sane_setMask (s : Signals) (mask : SignalSet) : (s.setMask mask).Sane := fun _ hp =>
  (Bool.and_eq_true_iff.mp hp).2

/-- A signal that arrives is delivered or blocked. -/
theorem sane_raise (hs : s.Sane) (t : Signal) : (s.raise t).Sane := by
  intro t' hp
  rw [blocked_raise]
  unfold raise at hp
  split at hp
  · next hb =>
    rcases Bool.or_eq_true_iff.mp hp with heq | hp
    · rw [beq_iff_eq.mp heq, hb]
    · exact hs t' hp
  · exact hs t' hp

/-- Signals that arrive are delivered or blocked. -/
theorem sane_foldl_raise (hs : s.Sane) (ts : List Signal) : (ts.foldl raise s).Sane := by
  induction ts generalizing s with
  | nil => exact hs
  | cons t rest ih => exact ih (sane_raise hs t)

/-- A set without a signal in it has none in order. -/
theorem ordered_of_none {set : SignalSet} (h : ∀ t, set t = false) : ordered set = [] :=
  List.filter_eq_nil_iff.mpr fun t _ => by rw [h t]; exact Bool.false_ne_true

/-- A set with one signal in it has that one in order. -/
theorem ordered_of_single {set : SignalSet} (hlow : 0 ≤ t) (hhigh : t ≤ 64)
    (h : ∀ t', set t' = (t' == t)) : ordered set = [t] := by
  have hset : set = fun t' => t' == t := funext h
  have hmem : t ∈ (List.range 65).map Int.ofNat := by
    obtain ⟨n, rfl⟩ := Int.eq_ofNat_of_zero_le hlow
    have hn : n ≤ 64 := Int.ofNat_le.mp hhigh
    exact List.mem_map.mpr ⟨n, List.mem_range.mpr (Nat.lt_succ_of_le hn), rfl⟩
  have hnodup : ((List.range 65).map Int.ofNat).Nodup :=
    List.nodup_range.map fun _ _ => Int.ofNat.inj
  rw [ordered, hset, List.filter_beq, List.count_eq_one_of_mem hnodup hmem]
  rfl

/-- A mask that blocks all that is pending lets nothing through. -/
theorem setMask_of_blocking {mask : SignalSet} (h : ∀ t, s.pending t = true → mask t = true) :
    s.setMask mask = { s with blocked := mask } := by
  have hnone : ordered (s.pending.diff mask) = [] := by
    refine ordered_of_none fun t => ?_
    rw [SignalSet.diff]
    cases hp : s.pending t with
    | true => rw [h t hp]; rfl
    | false => rfl
  have hkept : (fun t => s.pending t && mask t) = s.pending := by
    funext t
    cases hp : s.pending t with
    | true => rw [h t hp]; rfl
    | false => rfl
  rw [setMask, hnone, hkept, deliver, List.append_nil, List.find?_nil, Option.or_none]

/-- The signals of a process that has been ended by one. -/
def endedBy (s : Signals) (t : Signal) : Signals where
  blocked := s.blocked.erase t
  pending := s.pending.erase t
  ignored := s.ignored.erase t
  delivered := s.delivered ++ [t]
  ending? := some t

/-- A signal that ends a process has a number that a signal can have. -/
theorem bounds_of_terminates (ht : t.terminates = true) : 0 ≤ t ∧ t ≤ 64 := by
  rw [Signal.terminates, Bool.and_eq_true, Bool.and_eq_true, Bool.and_eq_true, decide_eq_true_eq,
    decide_eq_true_eq] at ht
  exact ⟨Int.le_trans (by decide) ht.1.1.1, ht.1.1.2⟩

/-- A signal that ends a process does so once it has its default action again. -/
theorem endsBy_restoreDefault (s : Signals) (ht : t.terminates = true) :
    (s.restoreDefault t).endsBy t = true := by
  show (t.terminates && !(t != t && s.ignored t)) = true
  rw [ht, bne_self_eq_false]
  rfl

/-- One that is blocked is delivered when it is let through, and no other is. -/
theorem raise_of_blocked (hs : s.Sane) (hnone : s.ending? = none) (ht : t.terminates = true)
    (hb : s.blocked t = true) :
    ((s.restoreDefault t).raise t).ending? = none ∧
      ((s.restoreDefault t).raise t).setMask
        (((s.restoreDefault t).raise t).blocked.erase t) = s.endedBy t := by
  have hraise : (s.restoreDefault t).raise t =
      { s.restoreDefault t with pending := s.pending.insert t } := if_pos hb
  obtain ⟨hlow, hhigh⟩ := bounds_of_terminates ht
  have hothers : ∀ t', (t' == t) = false → (s.pending t' && !s.blocked t') = false := by
    intro t' _
    cases hp : s.pending t' with
    | true => rw [hs t' hp]; rfl
    | false => rfl
  have hordered : ordered ((s.pending.insert t).diff (s.blocked.erase t)) = [t] := by
    refine ordered_of_single hlow hhigh fun t' => ?_
    rw [SignalSet.diff, SignalSet.insert, SignalSet.erase, bne]
    cases heq : t' == t with
    | true => rfl
    | false => exact hothers t' heq
  have hpending : (fun t' => s.pending.insert t t' && s.blocked.erase t t') =
      s.pending.erase t := by
    funext t'
    rw [SignalSet.insert, SignalSet.erase, SignalSet.erase, bne]
    cases heq : t' == t with
    | true => rfl
    | false =>
      cases hp : s.pending t' with
      | true => rw [hs t' hp]; rfl
      | false => rfl
  rw [hraise]
  refine ⟨hnone, ?_⟩
  show Signals.mk (s.blocked.erase t) (fun t' => s.pending.insert t t' && s.blocked.erase t t')
    (s.ignored.erase t)
    (s.delivered ++ ordered ((s.pending.insert t).diff (s.blocked.erase t)))
    (s.ending?.or ((ordered ((s.pending.insert t).diff (s.blocked.erase t))).find?
      (s.restoreDefault t).endsBy)) = _
  rw [hordered, hpending, hnone, List.find?_cons_of_pos (endsBy_restoreDefault s ht)]
  rfl

/-- One that is not blocked is delivered when it is raised, and no other is let through. -/
theorem raise_of_open (hs : s.Sane) (hnone : s.ending? = none) (ht : t.terminates = true)
    (hb : s.blocked t = false) :
    ((s.restoreDefault t).raise t).ending? = some t ∧
      ((s.restoreDefault t).raise t).setMask
        (((s.restoreDefault t).raise t).blocked.erase t) = s.endedBy t := by
  have hopen : (s.restoreDefault t).blocked t ≠ true := Bool.eq_false_iff.mp hb
  have hraise : (s.restoreDefault t).raise t = (s.restoreDefault t).deliver [t] := if_neg hopen
  have hnot : s.pending t ≠ true := fun hp => by
    rw [hs t hp] at hb
    cases hb
  have hending : ((s.restoreDefault t).deliver [t]).ending? = some t := by
    show s.ending?.or ([t].find? (s.restoreDefault t).endsBy) = some t
    rw [hnone, List.find?_cons_of_pos (endsBy_restoreDefault s ht)]
    rfl
  have herased : s.pending.erase t = s.pending := by
    funext t'
    rw [SignalSet.erase, bne]
    cases heq : t' == t with
    | true => rw [beq_iff_eq.mp heq, Bool.eq_false_iff.mpr hnot]; rfl
    | false => rfl
  have hkept : ∀ t', s.pending t' = true → s.blocked.erase t t' = true := by
    intro t' hp
    have hne : t' ≠ t := fun heq => hnot (heq ▸ hp)
    rw [SignalSet.erase, bne_iff_ne.mpr hne, hs t' hp]
    rfl
  have hmask : ((s.restoreDefault t).deliver [t]).setMask (s.blocked.erase t) =
      { (s.restoreDefault t).deliver [t] with blocked := s.blocked.erase t } :=
    setMask_of_blocking hkept
  rw [hraise]
  refine ⟨hending, hmask.trans ?_⟩
  show Signals.mk (s.blocked.erase t) s.pending (s.ignored.erase t) (s.delivered ++ [t])
    ((s.restoreDefault t).deliver [t]).ending? = s.endedBy t
  rw [hending, endedBy, herased]

end Signals

/-! ## What the tool's work keeps of the signals -/

/-- The mask stays, and so does that nothing is pending which is not blocked, and the limit on the
tool's core file. -/
structure Host.Undisturbed (h h' : Host) : Prop where
  blocked : h'.signals.blocked = h.signals.blocked
  sane : h.signals.Sane → h'.signals.Sane
  coreSuppressed : h'.coreSuppressed = h.coreSuppressed

/-- Noting the end of the tool leaves the limit on the core file. -/
theorem Host.settle_coreSuppressed (h : Host) : h.settle.coreSuppressed = h.coreSuppressed := by
  unfold settle
  split <;> rfl

/-- All the work of the tool leaves the signals undisturbed. -/
theorem maskFrame (m : Machine) : WorkFrame m Host.Undisturbed where
  refl _ := ⟨rfl, id, rfl⟩
  trans h h' := ⟨h'.blocked.trans h.blocked, fun hs => h'.sane (h.sane hs),
    h'.coreSuppressed.trans h.coreSuppressed⟩
  emit _ _ := ⟨rfl, id, rfl⟩
  files _ _ := ⟨rfl, id, rfl⟩
  poll h := ⟨Signals.blocked_foldl_raise _ _, fun hs => Signals.sane_foldl_raise hs _, rfl⟩
  attempt attempt shownAs discardStderr h := by
    obtain ⟨sent, ha⟩ := Host.exists_attempted attempt shownAs discardStderr h
    refine ⟨ha.blocked, fun _ => ?_, ?_⟩
    · rw [ha.signals]
      exact Signals.sane_setMask _ _
    · rw [run_runAttempt]
      split <;> simp only [signalled, absorb, settle_coreSuppressed]
  absorb o shown h := by
    have hsignals : (h.absorb o shown).signals = o.sent.foldl Signals.raise h.signals :=
      settle_signals _
    refine ⟨?_, fun hs => ?_, settle_coreSuppressed _⟩
    · show (h.absorb o shown).signals.blocked = _
      rw [hsignals, Signals.blocked_foldl_raise]
    · show (h.absorb o shown).signals.Sane
      rw [hsignals]
      exact Signals.sane_foldl_raise hs _

/-! ## The end of the tool -/

namespace Host

variable {h : Host} {s : Signals} {t : Signal}

/-- The host with other signals. -/
def withSignals (h : Host) (s : Signals) : Host := { h with signals := s }

/-- The host once a signal has ended the tool. -/
def deadBy (h : Host) (t : Signal) : Host :=
  { h with
    death := some
      { signal := t, files := h.files, events := h.events, coreSuppressed := h.coreSuppressed } }

/-- A change of the signals that does not end the tool. -/
theorem signalled_of_alive (f : Signals → Signals) (hdeath : h.death = none)
    (hf : (f s).ending? = none) :
    (h.withSignals s).signalled f = h.withSignals (f s) := by
  simp only [signalled, withSignals, settle, hdeath, hf]

/-- A change of the signals that ends the tool. -/
theorem signalled_of_ending (f : Signals → Signals) (hdeath : h.death = none)
    (hf : (f s).ending? = some t) :
    (h.withSignals s).signalled f = (h.withSignals (f s)).deadBy t := by
  simp only [signalled, withSignals, settle, deadBy, hdeath, hf]

/-- A change of the signals when the tool has been ended already. -/
theorem signalled_of_dead (f : Signals → Signals) :
    ((h.withSignals s).deadBy t).signalled f = (h.withSignals (f s)).deadBy t := rfl

/-- The tool has been ended by no signal. -/
def IsAlive (h : Host) : Prop := h.death = none ∧ h.signals.ending? = none

/-- Consuming the interrupts ends nothing. -/
theorem withoutInterrupts_death (halive : h.IsAlive) : h.withoutInterrupts.death = none := by
  fun_induction withoutInterrupts h with
  | case1 h => exact halive.1
  | case2 h i hseen ih =>
    refine ih ⟨?_, ?_⟩
    · show Leads (Host.discard i) h fun _ h' => h'.death = none
      unfold Host.discard
      rw [leads_bind, leads_get, if_pos (Signals.pending_of_pendingInterrupt? hseen), leads_bind,
        leads_modifySignals, leads_note]
      have hsignalled : h.signalled (·.consume i) = h.withSignals (h.signals.consume i) :=
        signalled_of_alive _ halive.1 halive.2
      rw [hsignalled]
      exact halive.1
    · rw [signals_discard (Signals.pending_of_pendingInterrupt? hseen)]
      exact halive.2

/-- Consuming the interrupts loses nothing that has been written down. -/
theorem retains_withoutInterrupts (h : Host) : Retains h h.withoutInterrupts := by
  fun_induction withoutInterrupts h with
  | case1 h => exact .of_eq rfl
  | case2 h i hseen ih =>
    have hdiscard : Leads (Host.discard i) h fun _ h' => Retains h h' := by
      unfold Host.discard
      rw [leads_bind, leads_get, if_pos (Signals.pending_of_pendingInterrupt? hseen), leads_bind,
        leads_modifySignals]
      have hsame : Retains h (h.signalled (·.consume i)) := .of_eq (settle_events _)
      have hnoted : Retains (h.signalled (·.consume i))
          ((h.signalled (·.consume i)).noted (.discarded i)) := .single rfl trivial
      exact hsame.trans hnoted
    exact .trans hdiscard ih

end Host

namespace Cli

variable {m : Machine} {cfg : Config} {script : Path} {i : Invocation} {h k : Host}

/-- When the program has ended with an exit code that is the end of the tool: the interrupts that
are pending are discarded, and no other signal is let through by the mask from before. -/
theorem exits {before : SignalSet} (halive : k.IsAlive)
    (hmask : k.signals.blocked = before.union .interrupts) (hsane : k.signals.Sane) (c : Int) :
    Leads (do discardInterrupts; afterUnmask before (propagate (.exited c))) k fun ending h' =>
      ending = .exited c ∧ h'.death = none ∧ h'.files = k.files ∧ Retains k h' ∧
        h'.signals = { k.signals with
          blocked := before, pending := k.signals.pending.diff .interrupts } := by
  obtain ⟨hsignals, hfiles⟩ := signals_withoutInterrupts k
  have hblocking : ∀ t, k.withoutInterrupts.signals.pending t = true → before t = true := by
    intro t hp
    rw [hsignals] at hp
    obtain ⟨hp, ht⟩ := Bool.and_eq_true_iff.mp hp
    have hb := hsane t hp
    rw [hmask] at hb
    refine (Bool.or_eq_true_iff.mp hb).resolve_right fun hi => ?_
    rw [hi] at ht
    cases ht
  have hsettled : (k.withoutInterrupts.signals.setMask before) =
      { k.signals with blocked := before, pending := k.signals.pending.diff .interrupts } := by
    rw [Signals.setMask_of_blocking hblocking, hsignals]
  have hending : (k.withoutInterrupts.signals.setMask before).ending? = none := by
    rw [hsettled]
    exact halive.2
  have hunmasked : k.withoutInterrupts.signalled (·.setMask before) =
      k.withoutInterrupts.withSignals (k.withoutInterrupts.signals.setMask before) :=
    signalled_of_alive _ (withoutInterrupts_death halive) hending
  have hunmask : (unmask before).run k.withoutInterrupts =
      (none, k.withoutInterrupts.withSignals (k.withoutInterrupts.signals.setMask before)) := by
    have hrun : (unmask before).run k.withoutInterrupts =
        ((k.withoutInterrupts.signalled (·.setMask before)).signals.ending?,
          k.withoutInterrupts.signalled (·.setMask before)) := rfl
    rw [hrun, hunmasked]
    exact Prod.ext hending rfl
  have hdiscard : discardInterrupts.run k = ((), k.withoutInterrupts) := rfl
  unfold afterUnmask
  rw [leads_bind, leads_of_run hdiscard, leads_bind, leads_of_run hunmask]
  exact ⟨rfl, withoutInterrupts_death halive, hfiles, retains_withoutInterrupts k, hsettled⟩

/-- A signal that is raised again ends the tool, whether it has been blocked or not. -/
theorem run_raiseAgain (halive : h.IsAlive) (hsane : h.signals.Sane) {t : Signal}
    (ht : t.terminates = true) :
    (raiseAgain t).run h = (some t, (h.withSignals (h.signals.endedBy t)).deadBy t) := by
  have hsteps : (raiseAgain t).run h =
      ((((h.signalled (·.restoreDefault t)).signalled (·.raise t)).signalled
        (fun s => s.setMask (s.blocked.erase t))).signals.ending?,
      ((h.signalled (·.restoreDefault t)).signalled (·.raise t)).signalled
        (fun s => s.setMask (s.blocked.erase t))) := rfl
  have hrestored : h.signalled (·.restoreDefault t) =
      h.withSignals (h.signals.restoreDefault t) := signalled_of_alive _ halive.1 halive.2
  have hended : ((h.signalled (·.restoreDefault t)).signalled (·.raise t)).signalled
      (fun s => s.setMask (s.blocked.erase t)) =
        (h.withSignals (h.signals.endedBy t)).deadBy t := by
    rw [hrestored]
    cases hb : h.signals.blocked t with
    | true =>
      obtain ⟨hnone, hended⟩ := Signals.raise_of_blocked hsane halive.2 ht hb
      have hlast : (((h.signals.restoreDefault t).raise t).setMask
          (((h.signals.restoreDefault t).raise t).blocked.erase t)).ending? = some t := by
        rw [hended]
        rfl
      rw [signalled_of_alive (·.raise t) halive.1 hnone,
        signalled_of_ending (fun s => s.setMask (s.blocked.erase t)) halive.1 hlast, hended]
    | false =>
      obtain ⟨hsome, hended⟩ := Signals.raise_of_open hsane halive.2 ht hb
      rw [signalled_of_ending (·.raise t) halive.1 hsome, signalled_of_dead, hended]
  rw [hsteps, hended]
  rfl

/-- When the program has been ended by a signal the tool ends by that signal: no other signal is let
through, the interrupts stay blocked, and the tool's core file has been given up if the signal means
one. -/
theorem dies (halive : k.IsAlive) (hsane : k.signals.Sane) {t : Signal}
    (hknown : t.isKnown = true) (ht : t.terminates = true) (core : Bool) :
    Leads (propagate (.signaled t core)) k fun ending h' =>
      ending = .killed t (k.coreSuppressed || t.dumpsCore) ∧
        h'.signals = k.signals.endedBy t ∧
        h'.death = some
          { signal := t, files := h'.files, events := h'.events
            coreSuppressed := k.coreSuppressed || t.dumpsCore } := by
  have hsuppress : (suppressCore t).run k =
      ((), { k with coreSuppressed := k.coreSuppressed || t.dumpsCore }) := rfl
  let k₁ : Host :=
    ({ k with coreSuppressed := k.coreSuppressed || t.dumpsCore } : Host).noted (.reraising t)
  have halive₁ : k₁.IsAlive := halive
  have hsane₁ : k₁.signals.Sane := hsane
  have hraise := run_raiseAgain halive₁ hsane₁ ht
  show Leads (reraise t) k _
  unfold reraise
  rw [if_pos hknown, leads_bind, leads_of_run hsuppress, leads_bind, leads_note, leads_bind]
  exact (leads_of_run hraise _).mpr ⟨rfl, rfl, rfl⟩

/-- Ending as the program ended changes no file and loses nothing that has been written down. -/
theorem propagate_quiet (status : ExitStatus) (k : Host) :
    Leads (propagate status) k fun _ h' => Retains k h' ∧ h'.files = k.files := by
  have hraise : ∀ (t : Signal) (h : Host), Leads (raiseAgain t) h fun _ h' =>
      h'.events = h.events ∧ h'.files = h.files := fun t h =>
    ⟨(settle_events _).trans ((settle_events _).trans (settle_events _)),
      (settle_files _).trans ((settle_files _).trans (settle_files _))⟩
  cases status with
  | exited code => exact ⟨.of_eq rfl, rfl⟩
  | signaled t core =>
    show Leads (reraise t) k _
    unfold reraise
    split
    · refine Leads.bind (P := fun _ h₁ => h₁.events = k.events ∧ h₁.files = k.files) ⟨rfl, rfl⟩
        fun _ h₁ hh₁ => ?_
      rw [leads_bind, leads_note]
      refine Leads.bind (hraise t _) fun ending? h₂ hh₂ => ?_
      have hnoted : Retains h₁ h₂ := .single hh₂.1 trivial
      have hquiet : Retains k h₂ ∧ h₂.files = k.files :=
        ⟨.trans (.of_eq hh₁.1) hnoted, hh₂.2.trans hh₁.2⟩
      cases ending? <;> exact hquiet
    · exact ⟨.of_eq rfl, rfl⟩

/-- A signal without a name ends the tool with an exit code. -/
theorem exits_unknown {t : Signal} (hunknown : t.isKnown = false) (core : Bool) (k : Host) :
    (propagate (.signaled t core)).run k = (.exited (128 + t), k) := by
  show (reraise t).run k = _
  unfold reraise
  rw [if_neg (by rw [hunknown]; exact Bool.false_ne_true)]
  rfl

/-! ## A whole run -/

/-- Build a script and start its program, up to the end of that. What is given is the build, the
executable, and how the program has ended. -/
def untilEnded (m : Machine) (cfg : Config) (script : Path) (i : Invocation) :
    StateM Host (Except Failure (Build × Path × ExitStatus)) := do
  Host.modifySignals (·.blockInterrupts)
  let ts ← (Toolset.ofConfig cfg).pushFlags i.toolsetFlags .normal
  let (built, b, _) ← (Build.ofPath m (← get) cfg script).build m ts
  match built with
  | .error f => return .error f
  | .ok executable =>
    let l := Launcher.ofDebugger cfg.debugger
    Host.note (.launching executable l.text)
    let (launched, b) ← b.launch m l cfg i.programArgs
    return launched.map fun status => (b, executable, status)

/-- What is left to do when the program has ended: the executable is removed, and the tool ends as
the program did. -/
def conclude (m : Machine) (before : SignalSet) (b : Build) (status : ExitStatus) :
    StateM Host Ending := do
  let _ ← b.removeExecutable m
  match status with
  | .signaled signal core => propagate (.signaled signal core)
  | status => do
    Host.discardInterrupts
    afterUnmask before (propagate status)

/-- When the program has ended the build still has its executable. -/
theorem untilEnded_outcome (hsave : cfg.saveTemps = false) (hnone : cfg.executable = none)
    (script : Path) (i : Invocation) (h : Host) :
    Leads (untilEnded m cfg script i) h fun r _ => ∀ b executable status,
      r = .ok (b, executable, status) →
        b.config = cfg ∧ b.primary.executable? = some executable := by
  unfold untilEnded
  refine Leads.bind (P := fun _ h₁ => Leaves m cfg [] h h₁) (leaves_modifySignals _ h)
    fun _ h₁ hl₁ => ?_
  refine Leads.bind ((Toolset.ofConfig cfg).pushFlags_outcome i.toolsetFlags .normal h₁)
    fun ts h₂ hpushed => ?_
  obtain ⟨hts, hfiles, hwrote⟩ := hpushed
  have hcfg : ts.config = cfg := by
    rw [hts, Toolset.pushed_normal]
    rfl
  have hl₂ : Leaves m cfg [] h h₂ := hl₁.trans (.of_files (hwrote.mono fun _ _ => trivial) hfiles)
  rw [leads_bind, leads_get]
  refine Leads.bind (Build.build_accounted hsave hnone hcfg
    (Build.isAccounted_ofPath m h₂ cfg script hl₂)) fun r h₃ hr => ?_
  obtain ⟨built, b, ts'⟩ := r
  obtain ⟨ha, -, hexecutable⟩ := hr
  cases built with
  | error f => exact fun _ _ _ hr => by cases hr
  | ok executable =>
    have hnote : ∀ n : Note, Leads (note n) h₃ fun _ h₄ => b.IsAccounted m cfg h h₄ :=
      fun n => ⟨ha.config, ha.units.host (leaves_note n h₃)⟩
    refine Leads.bind (hnote _) fun _ h₄ ha₄ => ?_
    refine Leads.bind (Build.launch_spares i.programArgs ha₄ hexecutable) fun r h₅ hr => ?_
    obtain ⟨launched, b₅⟩ := r
    obtain ⟨hsame, -⟩ := hr
    have hsame : b₅ = b := hsame
    subst hsame
    intro b' executable' status hstatus
    cases launched with
    | error f => cases hstatus
    | ok status' =>
      cases hstatus
      exact ⟨ha.config, hexecutable⟩

/-- A run whose program ends does what is left to do then. -/
theorem execute_of_untilEnded (hnone : cfg.executable = none) {b : Build} {executable : Path}
    {status : ExitStatus}
    (hrun : (untilEnded m cfg script i).run h = (.ok (b, executable, status), k)) :
    (execute m cfg script i).run h = (conclude m h.signals.blocked b status).run k := by
  have hblock : (modifySignals (·.blockInterrupts)).run h =
      ((), h.signalled (·.blockInterrupts)) := rfl
  have hlook : ∀ h : Host, (get : StateM Host Host).run h = (h, h) := fun _ => rfl
  have hnote : ∀ (n : Note) (h : Host), (note n).run h = ((), h.noted n) := fun _ _ => rfl
  obtain ⟨ts, h₁, hpush⟩ := exists_run
    ((Toolset.ofConfig cfg).pushFlags i.toolsetFlags .normal) (h.signalled (·.blockInterrupts))
  obtain ⟨⟨built, b₁, ts₁⟩, h₂, hbuild⟩ := exists_run ((Build.ofPath m h₁ cfg script).build m ts) h₁
  rw [untilEnded, run_bind_of_run hblock, run_bind_of_run hpush, run_bind_of_run (hlook h₁),
    run_bind_of_run hbuild] at hrun
  rw [execute, run_bind_of_run (hlook h), run_bind_of_run hblock, run_bind_of_run hpush,
    run_bind_of_run (hlook h₁), run_bind_of_run hbuild]
  cases built with
  | error f => cases hrun
  | ok executable' =>
    dsimp only at hrun ⊢
    obtain ⟨⟨launched, b₂⟩, h₃, hlaunch⟩ := exists_run
      (b₁.launch m (Launcher.ofDebugger cfg.debugger) cfg i.programArgs)
      (h₂.noted (.launching executable' (Launcher.ofDebugger cfg.debugger).text))
    rw [run_bind_of_run (hnote _ h₂), run_bind_of_run hlaunch] at hrun
    rw [Config.buildsOnly, hnone, if_neg (by simp), launch, run_bind_of_run (hnote _ h₂),
      run_bind_of_run hlaunch]
    cases launched with
    | error f => cases hrun
    | ok status' =>
      cases hrun
      cases status <;> rfl

/-- When the program has ended, the interrupts are blocked on top of the mask from before, and
nothing is pending that is not blocked. -/
theorem untilEnded_undisturbed (m : Machine) (cfg : Config) (script : Path) (i : Invocation)
    (h : Host) : Leads (untilEnded m cfg script i) h fun _ k =>
      k.signals.blocked = h.signals.blocked.union .interrupts ∧ k.signals.Sane ∧
        k.coreSuppressed = h.coreSuppressed := by
  have F := maskFrame m
  have hwork : Maintains Host.Undisturbed (do
      let ts ← (Toolset.ofConfig cfg).pushFlags i.toolsetFlags .normal
      let (built, b, _) ← (Build.ofPath m (← get) cfg script).build m ts
      match built with
      | .error f => return .error f
      | .ok executable =>
        let l := Launcher.ofDebugger cfg.debugger
        Host.note (.launching executable l.text)
        let (launched, b) ← b.launch m l cfg i.programArgs
        return launched.map fun status => (b, executable, status) :
      StateM Host (Except Failure (Build × Path × ExitStatus))) := by
    refine F.bind (F.pushFlags _ _ _) fun ts => F.bind F.get fun h₁ => ?_
    refine F.bind (F.build _ ts) fun r => ?_
    obtain ⟨built, b, ts'⟩ := r
    cases built with
    | error f => exact F.pure _
    | ok executable => exact F.bind (F.emit _) fun _ => F.map (F.launch b _ cfg _) _
  unfold untilEnded
  rw [leads_bind, leads_modifySignals]
  refine (hwork _).mono fun _ k hk => ⟨?_, hk.sane ?_, ?_⟩
  · rw [hk.blocked, signalled_signals]
    rfl
  · rw [signalled_signals]
    exact Signals.sane_setMask _ _
  · rw [hk.coreSuppressed]
    exact settle_coreSuppressed _

/-- Removing the executable leaves the tool and its signals alone. -/
theorem aliveFrame (m : Machine) : ClearFrame m fun h h' =>
    h'.signals = h.signals ∧ h'.death = h.death ∧ h'.coreSuppressed = h.coreSuppressed where
  refl _ := ⟨rfl, rfl, rfl⟩
  trans h h' := ⟨h'.1.trans h.1, h'.2.1.trans h.2.1, h'.2.2.trans h.2.2⟩
  remove p h := by
    refine (CompilationUnit.removeFile_outcome m p h).mono fun _ h' hr => ?_
    cases hr <;> exact ⟨rfl, rfl, rfl⟩

/-- The tool, started with the host `h`, exits with a code when its program has ended and left the
host `k`. -/
structure Exits (h k : Host) (code : Int) (ending : Ending) (h' : Host) : Prop where
  ending : ending = .exited code
  /-- No signal has ended the tool, and none has been delivered to it since. -/
  alive : h'.IsAlive
  delivered : h'.signals.delivered = k.signals.delivered
  /-- The mask is the one from before, and of what was pending the interrupts are gone. -/
  blocked : h'.signals.blocked = h.signals.blocked
  pending : h'.signals.pending = k.signals.pending.diff .interrupts

/-- The tool, started with the host `h`, dies by a signal when its program has ended and left the
host `k`. -/
structure Dies (h k : Host) (signal : Signal) (ending : Ending) (h' : Host) : Prop where
  ending : ending = .killed signal (h.coreSuppressed || signal.dumpsCore)
  /-- That signal has ended it, behind all else, and by then its core file was given up if the
  signal means one. -/
  death : h'.death = some
    { signal, files := h'.files, events := h'.events
      coreSuppressed := h.coreSuppressed || signal.dumpsCore }
  /-- No other signal has been delivered to it since, and the others that were pending still are. -/
  delivered : h'.signals.delivered = k.signals.delivered ++ [signal]
  blocked : h'.signals.blocked = k.signals.blocked.erase signal
  pending : h'.signals.pending = k.signals.pending.erase signal

/-- When the program has ended its executable is removed, or what has kept it is told, and the tool
and its signals are left alone. -/
theorem removeExecutable_leaves {b : Build} {executable : Path} (hsave : cfg.saveTemps = false)
    (hnone : cfg.executable = none) (hconfig : b.config = cfg)
    (hexecutable : b.primary.executable? = some executable) (k : Host) :
    Leads (b.removeExecutable m) k fun _ k₁ => Disposed m executable k k₁ ∧
      k₁.signals = k.signals ∧ k₁.death = k.death ∧ k₁.coreSuppressed = k.coreSuppressed := by
  have hbuild : cfg.buildsOnly = false := by rw [Config.buildsOnly, hnone]; rfl
  have hunit : Leads (b.primary.removeExecutable m b.config) k fun _ k₁ =>
      Disposed m executable k k₁ ∧
        k₁.signals = k.signals ∧ k₁.death = k.death ∧ k₁.coreSuppressed = k.coreSuppressed := by
    rw [hconfig]
    refine ⟨?_, b.primary.removeExecutable_clears (aliveFrame m) k⟩
    refine b.primary.removeExecutable_disposes hsave hbuild k executable ?_
    rw [hexecutable]
    exact List.mem_singleton_self _
  unfold Build.removeExecutable
  exact Leads.bind hunit fun _ _ hr => hr

/-- How the tool, started with the host `h`, ends when its program has ended with a status and left
the host `k`. A signal without a name is told by the exit code. -/
def EndsAs (h k : Host) (ending : Ending) (h' : Host) : ExitStatus → Prop
  | .exited code => Exits h k code ending h'
  | .signaled signal _ =>
    (signal.isKnown = true → signal.terminates = true → Dies h k signal ending h') ∧
      (signal.isKnown = false → ending = .exited (128 + signal) ∧ h'.IsAlive)

/-- What is left to do when the program has ended with a status makes the tool end as that says. -/
theorem ends_of_removed {k₁ : Host} (halive : k.IsAlive)
    (hblocked : k.signals.blocked = h.signals.blocked.union .interrupts) (hsane : k.signals.Sane)
    (hcore : k.coreSuppressed = h.coreSuppressed) (hsignals : k₁.signals = k.signals)
    (hdeath : k₁.death = k.death) (hcore₁ : k₁.coreSuppressed = k.coreSuppressed)
    (status : ExitStatus) :
    Leads (match status with
      | .signaled signal core => propagate (.signaled signal core)
      | status => do
        Host.discardInterrupts
        afterUnmask h.signals.blocked (propagate status)) k₁ fun ending h' =>
      (Retains k₁ h' ∧ h'.files = k₁.files) ∧ EndsAs h k ending h' status := by
  have halive₁ : k₁.IsAlive := ⟨hdeath.trans halive.1, hsignals ▸ halive.2⟩
  have hsane₁ : k₁.signals.Sane := hsignals ▸ hsane
  cases status with
  | exited code =>
    obtain ⟨hending, hdead, hfiles, hretains, hs⟩ :=
      exits halive₁ (hsignals ▸ hblocked) hsane₁ code
    rw [hsignals] at hs
    refine ⟨⟨hretains, hfiles⟩, hending, ⟨hdead, ?_⟩, ?_, ?_, ?_⟩
    · rw [hs]
      exact halive.2
    all_goals rw [hs]
  | signaled signal core =>
    have hquiet := propagate_quiet (.signaled signal core) k₁
    refine ⟨hquiet, fun hknown ht => ?_, fun hunknown => ?_⟩
    · obtain ⟨hending, hs, hdead⟩ := dies halive₁ hsane₁ hknown ht core
      rw [hcore₁, hcore] at hending hdead
      rw [hsignals] at hs
      exact ⟨hending, hdead, by rw [hs]; rfl, by rw [hs]; rfl, by rw [hs]; rfl⟩
    · rw [exits_unknown hunknown core k₁]
      exact ⟨rfl, halive₁⟩

/-- When the program of a script has ended the executable is removed, and then the tool ends as the
program did, whatever interrupts are pending: it exits with the program's code, the mask from before
being restored without a signal being delivered; or it dies by the signal that ended the program and
by no other. That no signal has ended the tool before is all that is asked. -/
theorem execute_ends_as_program {m : Machine} {cfg : Config} {script : Path} {i : Invocation}
    {h k : Host} {b : Build} {executable : Path} {status : ExitStatus}
    (hsave : cfg.saveTemps = false) (hnone : cfg.executable = none)
    (hrun : (untilEnded m cfg script i).run h = (.ok (b, executable, status), k))
    (halive : k.IsAlive) :
    Leads (execute m cfg script i) h fun ending h' =>
      Disposed m executable k h' ∧ EndsAs h k ending h' status := by
  obtain ⟨hconfig, hexecutable⟩ :=
    (leads_of_run hrun _).mp (untilEnded_outcome hsave hnone script i h) b executable status rfl
  obtain ⟨hblocked, hsane, hcore⟩ :=
    (leads_of_run hrun _).mp (untilEnded_undisturbed m cfg script i h)
  have hconclude : Leads (conclude m h.signals.blocked b status) k fun ending h' =>
      Disposed m executable k h' ∧ EndsAs h k ending h' status := by
    unfold conclude
    refine Leads.bind (removeExecutable_leaves hsave hnone hconfig hexecutable k)
      fun _ k₁ hk₁ => ?_
    obtain ⟨hdisposed, hsignals, hdeath, hcore₁⟩ := hk₁
    refine (ends_of_removed halive hblocked hsane hcore hsignals hdeath hcore₁ status).mono
      fun ending h' hends => ?_
    obtain ⟨⟨hretains, hfiles⟩, hends⟩ := hends
    exact ⟨hdisposed.before hretains (hfiles ▸ .refl _), hends⟩
  obtain ⟨ending, h', hc⟩ := exists_run (conclude m h.signals.blocked b status) k
  rw [leads_of_run hc] at hconclude
  rwa [leads_of_run ((execute_of_untilEnded hnone hrun).trans hc)]

/-- The foundry, where a program that makes nothing ends in a given way when both interrupts have
been sent to it and to the tool. -/
def struck (status : ExitStatus) : Machine :=
  { foundry with
    execute := fun s fs =>
      (smith s fs).map fun o =>
        if s.argv.contains "-o" then o else { o with status, sent := [.quit, .interrupt] } }

/-- The run of the smithy's script up to the end of its program. -/
def struckRun (status : ExitStatus) : Except Failure (Build × Path × ExitStatus) × Host :=
  (untilEnded (struck status) smithyConfig ⟨"/m.cpp"⟩ {}).run smithy

/-- What is looked at when that program has ended: the executable, how the program has ended, what
is pending, and whether a signal has ended the tool. -/
def struckFacts (status : ExitStatus) : Option (Path × ExitStatus) × (Bool × Bool) × Bool :=
  ((struckRun status).1.toOption.map (·.2),
    ((struckRun status).2.signals.pending .interrupt, (struckRun status).2.signals.pending .quit),
    (struckRun status).2.death.isNone && (struckRun status).2.signals.ending?.isNone)

/-- With both interrupts pending the tool exits with the code of a program that exits with one, and
dies by SIGQUIT, without a core file of its own, where the program has died by it. -/
theorem execute_ends_as_program_struck :
    (struckFacts (.exited 3) = (some (⟨"/m-hbcxx-7"⟩, .exited 3), (true, true), true) ∧
      Leads (execute (struck (.exited 3)) smithyConfig ⟨"/m.cpp"⟩ {}) smithy fun ending h' =>
        ending = .exited 3 ∧ h'.IsAlive) ∧
    struckFacts (.signaled .quit true) =
        (some (⟨"/m-hbcxx-7"⟩, .signaled .quit true), (true, true), true) ∧
      Leads (execute (struck (.signaled .quit true)) smithyConfig ⟨"/m.cpp"⟩ {}) smithy
        fun ending h' => ending = .killed .quit true ∧ h'.signals.pending .interrupt = true := by
  have hends : ∀ status, struckFacts status =
      (some (⟨"/m-hbcxx-7"⟩, status), (true, true), true) → ∃ k : Host,
        k.signals.pending .interrupt = true ∧
        Leads (execute (struck status) smithyConfig ⟨"/m.cpp"⟩ {}) smithy fun ending h' =>
          Disposed (struck status) ⟨"/m-hbcxx-7"⟩ k h' ∧ EndsAs smithy k ending h' status := by
    intro status hfacts
    obtain ⟨⟨r, k⟩, hr⟩ : ∃ x, struckRun status = x := ⟨_, rfl⟩
    rw [struckFacts, hr] at hfacts
    obtain ⟨hended, hrest⟩ := Prod.mk.inj hfacts
    obtain ⟨hpending, halive⟩ := Prod.mk.inj hrest
    obtain ⟨hdeath, hending⟩ := Bool.and_eq_true_iff.mp halive
    cases r with
    | error f => cases hended
    | ok ended =>
      obtain ⟨b, executable, status'⟩ := ended
      cases hended
      exact ⟨k, (Prod.mk.inj hpending).1, execute_ends_as_program rfl rfl hr
        ⟨Option.isNone_iff_eq_none.mp hdeath, Option.isNone_iff_eq_none.mp hending⟩⟩
  have hexited : struckFacts (.exited 3) =
      (some (⟨"/m-hbcxx-7"⟩, .exited 3), (true, true), true) := by decide +kernel
  have hsignaled : struckFacts (.signaled .quit true) =
      (some (⟨"/m-hbcxx-7"⟩, .signaled .quit true), (true, true), true) := by decide +kernel
  obtain ⟨k, hpending, hleads⟩ := hends _ hexited
  obtain ⟨k', hpending', hleads'⟩ := hends _ hsignaled
  refine ⟨⟨hexited, hleads.mono fun ending h' hr => ⟨hr.2.ending, hr.2.alive⟩⟩, hsignaled, ?_⟩
  refine hleads'.mono fun ending h' hr => ?_
  have hdies := hr.2.1 rfl rfl
  refine ⟨hdies.ending, ?_⟩
  rw [hdies.pending, SignalSet.erase, hpending']
  rfl

end Cli

end CxxScript

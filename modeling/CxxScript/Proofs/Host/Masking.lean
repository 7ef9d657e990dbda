import CxxScript.Proofs.Host.Programs

/-!
# Guards on the signal mask

A guard blocks the interrupts and remembers the mask that it found; dropping it restores that mask.
Guards are not counted, so what they come to rests on their being dropped in the reverse of the
order in which they were taken, and on the guard inside each run of a program. `Host.Nests` is the
invariant of a stack of guards, `Host.Nests.perform` that every call keeps it. With it
`Host.interrupts_masked` says of every sequence of calls what becomes of the mask and of the
interrupts, and under which mask programs are started.
-/

set_option autoImplicit false

namespace CxxScript

namespace Signals

variable {s s' s'' : Signals} {i : Signal}

/-! ## What is delivered -/

/-- An interrupt that is pending and not in a mask is among the signals that the mask lets
through. -/
theorem mem_ordered_of_pending {mask : SignalSet} (hi : SignalSet.interrupts i = true)
    (hpending : s.pending i = true) (hmask : mask i = false) :
    i ∈ ordered (s.pending.diff mask) := by
  have hnumber : i ∈ (List.range 65).map Int.ofNat := by
    rw [SignalSet.interrupts, Bool.or_eq_true, beq_iff_eq, beq_iff_eq] at hi
    rcases hi with rfl | rfl <;> decide
  have hdiff : s.pending.diff mask i = true := by
    rw [SignalSet.diff, hpending, hmask]
    rfl
  exact List.mem_filter.mpr ⟨hnumber, hdiff⟩

/-- An interrupt that is pending is delivered by a mask that does not block it. -/
theorem mem_delivered_setMask {mask : SignalSet} (hi : SignalSet.interrupts i = true)
    (hpending : s.pending i = true) (hmask : mask i = false) :
    i ∈ (s.setMask mask).delivered :=
  List.mem_append_right _ (mem_ordered_of_pending hi hpending hmask)

/-- The interrupt that is seen is SIGINT where that is pending, and SIGQUIT otherwise. -/
theorem pendingInterrupt?_eq_some (h : s.pendingInterrupt? = some i) :
    (s.pending .interrupt = true ∧ i = .interrupt) ∨
      (s.pending .interrupt = false ∧ s.pending .quit = true ∧ i = .quit) := by
  rw [pendingInterrupt?] at h
  cases hi : s.pending .interrupt with
  | true =>
    rw [List.find?_cons_of_pos hi] at h
    exact .inl ⟨rfl, (Option.some.inj h).symm⟩
  | false =>
    rw [List.find?_cons_of_neg (by simp [hi])] at h
    cases hq : s.pending .quit with
    | true =>
      rw [List.find?_cons_of_pos hq] at h
      exact .inr ⟨rfl, rfl, (Option.some.inj h).symm⟩
    | false =>
      rw [List.find?_cons_of_neg (by simp [hq])] at h
      cases h

/-- No interrupt is seen where none is pending. -/
theorem pendingInterrupt?_eq_none (h : s.pendingInterrupt? = none) :
    ∀ i, SignalSet.interrupts i = true → s.pending i = false := by
  intro i hi
  rw [SignalSet.interrupts, Bool.or_eq_true, beq_iff_eq, beq_iff_eq] at hi
  have hnone := List.find?_eq_none.mp h
  rcases hi with rfl | rfl
  · exact Bool.not_eq_true _ ▸ hnone _ List.mem_cons_self
  · exact Bool.not_eq_true _ ▸ hnone _ (List.mem_cons_of_mem _ List.mem_cons_self)

/-- Nothing is lost from `s` to `s'`: what was delivered stays delivered, and an interrupt that was
pending is still pending unless it has been delivered since. -/
def Conserves (s s' : Signals) : Prop :=
  ∃ new, s'.delivered = s.delivered ++ new ∧
    ∀ i, SignalSet.interrupts i = true → s.pending i = true → s'.pending i = true ∨ i ∈ new

/-- No interrupt is delivered from `s` to `s'`. -/
def Withholds (s s' : Signals) : Prop :=
  s'.delivered.filter SignalSet.interrupts = s.delivered.filter SignalSet.interrupts

/-- The interrupts are blocked. -/
def Masked (s : Signals) : Prop := ∀ i, SignalSet.interrupts i = true → s.blocked i = true

/-- Nothing is lost where nothing happens. -/
theorem Conserves.refl (s : Signals) : Conserves s s :=
  ⟨[], (List.append_nil _).symm, fun _ _ hp => .inl hp⟩

/-- Nothing is lost in a sequence of which no part loses anything. -/
theorem Conserves.trans (h : Conserves s s') (h' : Conserves s' s'') : Conserves s s'' := by
  obtain ⟨new, hnew, hkeep⟩ := h
  obtain ⟨new', hnew', hkeep'⟩ := h'
  refine ⟨new ++ new', by rw [hnew', hnew, List.append_assoc], fun i hi hp => ?_⟩
  rcases hkeep i hi hp with hp' | hmem
  · exact (hkeep' i hi hp').imp_right (List.mem_append_right _)
  · exact .inr (List.mem_append_left _ hmem)

/-- Where nothing is lost and no interrupt is delivered, what is pending stays pending. -/
theorem Conserves.pending (h : Conserves s s') (hw : Withholds s s')
    (hi : SignalSet.interrupts i = true) (hp : s.pending i = true) : s'.pending i = true := by
  obtain ⟨new, hnew, hkeep⟩ := h
  refine (hkeep i hi hp).resolve_right fun hmem => ?_
  rw [Withholds, hnew, List.filter_append, List.append_right_eq_self] at hw
  exact List.not_mem_nil (hw ▸ List.mem_filter.mpr ⟨hmem, hi⟩)

/-- A signal that arrives leaves the mask as it is. -/
@[simp] theorem blocked_raise (s : Signals) (t : Signal) : (s.raise t).blocked = s.blocked := by
  unfold raise
  split <;> rfl

/-- Signals that arrive leave the mask as it is. -/
@[simp] theorem blocked_foldl_raise (s : Signals) (ts : List Signal) :
    (ts.foldl raise s).blocked = s.blocked := by
  induction ts generalizing s with
  | nil => rfl
  | cons t rest ih => rw [List.foldl_cons, ih, blocked_raise]

/-- A blocked signal that arrives is pending. -/
theorem pending_raise {t : Signal} (hb : s.blocked t = true) : (s.raise t).pending t = true := by
  rw [raise, if_pos hb]
  exact Bool.or_eq_true_iff.mpr (.inl (beq_self_eq_true t))

/-- A signal that is pending stays so when others arrive. -/
theorem pending_foldl_raise_of_pending {t : Signal} (hp : s.pending t = true) (ts : List Signal) :
    (ts.foldl raise s).pending t = true := by
  induction ts generalizing s with
  | nil => exact hp
  | cons t' rest ih =>
    refine ih ?_
    unfold raise
    split
    · exact Bool.or_eq_true_iff.mpr (.inr hp)
    · exact hp

/-- Each of the blocked signals that arrive is pending. -/
theorem pending_foldl_raise {t : Signal} (hb : s.blocked t = true) {ts : List Signal}
    (hmem : t ∈ ts) : (ts.foldl raise s).pending t = true := by
  induction ts generalizing s with
  | nil => cases hmem
  | cons t' rest ih =>
    rcases List.mem_cons.mp hmem with rfl | hmem
    · exact pending_foldl_raise_of_pending (pending_raise hb) rest
    · exact ih (by rw [blocked_raise, hb]) hmem

/-- A signal that arrives takes no other's place. -/
theorem conserves_raise (s : Signals) (t : Signal) : Conserves s (s.raise t) := by
  unfold raise
  split
  · exact ⟨[], (List.append_nil _).symm, fun i _ hp => .inl (Bool.or_eq_true_iff.mpr (.inr hp))⟩
  · exact ⟨[t], rfl, fun _ _ hp => .inl hp⟩

/-- Signals that arrive take no other's place. -/
theorem conserves_foldl_raise (s : Signals) (ts : List Signal) :
    Conserves s (ts.foldl raise s) := by
  induction ts generalizing s with
  | nil => exact .refl s
  | cons t rest ih => exact (conserves_raise s t).trans (ih _)

/-- Where the interrupts are blocked a signal that arrives delivers none. -/
theorem withholds_raise (hs : s.Masked) (t : Signal) : Withholds s (s.raise t) := by
  unfold raise
  split
  · rfl
  · next hb =>
    have ht : SignalSet.interrupts t ≠ true := fun ht => hb (hs t ht)
    show (s.delivered ++ [t]).filter SignalSet.interrupts = _
    rw [List.filter_append, List.filter_cons_of_neg ht, List.filter_nil, List.append_nil]

/-- Where the interrupts are blocked signals that arrive deliver none. -/
theorem withholds_foldl_raise (hs : s.Masked) (ts : List Signal) :
    Withholds s (ts.foldl raise s) := by
  induction ts generalizing s with
  | nil => rfl
  | cons t rest ih =>
    have hmasked : (s.raise t).Masked := fun i hi => by rw [blocked_raise, hs i hi]
    exact (ih hmasked).trans (withholds_raise hs t)

/-- A change of the mask delivers what it lets through. -/
theorem conserves_setMask (s : Signals) (mask : SignalSet) : Conserves s (s.setMask mask) := by
  refine ⟨_, rfl, fun i hi hp => ?_⟩
  cases hm : mask i with
  | true => exact .inl (Bool.and_eq_true_iff.mpr ⟨hp, hm⟩)
  | false => exact .inr (mem_ordered_of_pending hi hp hm)

/-- A mask that blocks the interrupts delivers none. -/
theorem withholds_setMask (s : Signals) {mask : SignalSet}
    (hmask : ∀ i, SignalSet.interrupts i = true → mask i = true) :
    Withholds s (s.setMask mask) := by
  show (s.delivered ++ ordered _).filter SignalSet.interrupts = _
  rw [List.filter_append, List.append_right_eq_self, List.filter_eq_nil_iff]
  intro i hmem hi
  have hdiff : s.pending.diff mask i = true := (List.mem_filter.mp hmem).2
  rw [SignalSet.diff, hmask i hi, Bool.not_true, Bool.and_false] at hdiff
  cases hdiff

/-- What blocks the interrupts blocks them. -/
theorem masked_blockInterrupts (s : Signals) : s.blockInterrupts.Masked := fun _ hi =>
  Bool.or_eq_true_iff.mpr (.inr hi)

end Signals

/-- A mask under which the interrupts are open and everything else is as under another one. -/
structure SignalSet.Opens (mask opened : SignalSet) : Prop where
  interrupts : ∀ i, SignalSet.interrupts i = true → opened i = false
  others : ∀ t, SignalSet.interrupts t = false → opened t = mask t

/-- Taking the interrupts out of a mask opens them. -/
theorem SignalSet.opens_diff (mask : SignalSet) : mask.Opens (mask.diff .interrupts) where
  interrupts i hi := by rw [diff, hi, Bool.not_true, Bool.and_false]
  others t ht := by rw [diff, ht, Bool.not_false, Bool.and_true]

namespace Host

open Signals

variable {m : Machine}

/-! ## Running a program to its end -/

/-- Running a program to its end, in one piece: the mask is restored whether or not it could be
started. -/
theorem run_runAttempt (attempt : SignalSet → Files → Except IoError Outcome) (shownAs : String)
    (discardStderr : Bool) (h : Host) :
    (runAttempt attempt shownAs discardStderr).run h =
      match attempt (h.signals.blocked.diff .interrupts) h.files with
      | .error cause => (.error (.spawn shownAs cause),
        (h.signalled (·.blockInterrupts)).signalled (·.setMask h.signals.blocked))
      | .ok o => (.ok o.status, ((h.signalled (·.blockInterrupts)).absorb o
          fun s => s = .output || !discardStderr).signalled (·.setMask h.signals.blocked)) := by
  have hblock : (modifySignals (·.blockInterrupts)).run h =
      ((), h.signalled (·.blockInterrupts)) := rfl
  have hlook : ∀ h : Host, (get : StateM Host Host).run h = (h, h) := fun _ => rfl
  unfold runAttempt
  rw [run_bind_of_run (hlook h), run_bind_of_run hblock, run_bind_of_run (hlook _),
    signalled_signals, signalled_files, Signals.forProgram_blockInterrupts]
  cases attempt (h.signals.blocked.diff .interrupts) h.files <;> rfl

/-- What an attempt to run a program to its end does to the signals. -/
structure Attempted (attempt : SignalSet → Files → Except IoError Outcome) (shownAs : String)
    (h : Host) (sent : List Signal) (r : Except ProcessError ExitStatus) (h' : Host) : Prop where
  signals : h'.signals =
    (sent.foldl raise h.signals.blockInterrupts).setMask h.signals.blocked
  result : (∃ cause, sent = [] ∧ r = .error (.spawn shownAs cause) ∧ h'.files = h.files) ∨
    ∃ o, attempt (h.signals.blocked.diff .interrupts) h.files = .ok o ∧ sent = o.sent ∧
      r = .ok o.status ∧ h'.files = o.files

/-- Running a program to its end lets its signals arrive behind a guard. -/
theorem exists_attempted (attempt : SignalSet → Files → Except IoError Outcome) (shownAs : String)
    (discardStderr : Bool) (h : Host) :
    Leads (runAttempt attempt shownAs discardStderr) h fun r h' =>
      ∃ sent, Attempted attempt shownAs h sent r h' := by
  unfold Leads
  rw [run_runAttempt]
  cases hattempt : attempt (h.signals.blocked.diff .interrupts) h.files with
  | error cause =>
    refine ⟨[], ?_, .inl ⟨cause, rfl, rfl, ?_⟩⟩
    · rw [signalled_signals, signalled_signals]
      rfl
    · rw [signalled_files, signalled_files]
  | ok o =>
    refine ⟨o.sent, ?_, .inr ⟨o, hattempt, rfl, rfl, ?_⟩⟩
    · rw [signalled_signals, absorb, settle_signals, signalled_signals]
    · rw [signalled_files, absorb, settle_files]

section Attempted

variable {attempt : SignalSet → Files → Except IoError Outcome} {shownAs : String} {h h' : Host}
  {sent : List Signal} {r : Except ProcessError ExitStatus}

/-- The mask is as before. -/
theorem Attempted.blocked (ha : Attempted attempt shownAs h sent r h') :
    h'.signals.blocked = h.signals.blocked := by
  rw [ha.signals]
  rfl

/-- Nothing is lost. -/
theorem Attempted.conserves (ha : Attempted attempt shownAs h sent r h') :
    Conserves h.signals h'.signals := by
  rw [ha.signals]
  exact (conserves_setMask _ _).trans ((conserves_foldl_raise _ _).trans (conserves_setMask _ _))

/-- Where the interrupts were blocked before, none is delivered. -/
theorem Attempted.withholds (ha : Attempted attempt shownAs h sent r h')
    (hmasked : h.signals.Masked) : Withholds h.signals h'.signals := by
  rw [ha.signals]
  have hblocked : ∀ i, SignalSet.interrupts i = true → h.signals.blocked i = true := hmasked
  refine (withholds_setMask _ hblocked).trans ?_
  refine (withholds_foldl_raise (masked_blockInterrupts _) sent).trans ?_
  exact withholds_setMask _ (masked_blockInterrupts _)

end Attempted

/-- A way to run a program to its end: as a command, or from a path with an explicit argument
vector. -/
inductive Job where
  | command (c : Command)
  | program (path : Path) (argv : List String)

namespace Job

/-- Run the program. -/
def run (m : Machine) : Job → StateM Host (Except ProcessError ExitStatus)
  | .command c => Host.run m c
  | .program path argv => runAs m path argv

/-- The step that is written down when the program is run. -/
def start : Job → Note
  | .command c => .running c
  | .program path argv => .runningAs path argv

/-- The attempt that is made to run the program. -/
def attempt (m : Machine) : Job → SignalSet → Files → Except IoError Outcome
  | .command c => m.start true c.program c.words
  | .program path argv =>
    m.start true path.text (if argv.isEmpty then [path.text] else argv)

/-- How the program is shown in an error. -/
def shownAs : Job → String
  | .command c => c.text
  | .program _ argv => Text.Words.join argv

/-- Whether what the program writes on standard error is thrown away. -/
def discardStderr : Job → Bool
  | .command c => c.discardStderr
  | .program .. => false

/-- Running a program is writing that down and making the attempt. -/
theorem run_eq (m : Machine) (j : Job) (h : Host) :
    (j.run m).run h =
      (runAttempt (j.attempt m) j.shownAs j.discardStderr).run (h.noted j.start) := by
  cases j <;> rfl

/-- Running a program lets its signals arrive behind a guard. -/
theorem exists_attempted (m : Machine) (j : Job) (h : Host) :
    Leads (j.run m) h fun r h' => ∃ sent, Attempted (j.attempt m) j.shownAs h sent r h' := by
  have ha := Host.exists_attempted (j.attempt m) j.shownAs j.discardStderr (h.noted j.start)
  unfold Leads at ha ⊢
  rw [run_eq]
  exact ha.imp fun _ ha => ⟨ha.signals, ha.result⟩

/-- A program that is run to its end is the execution of a file under a mask that opens the
interrupts; one that is not has changed no file. Behind a guard the interrupts that it sends are
pending. -/
theorem started (m : Machine) (j : Job) (h : Host) :
    Leads (j.run m) h fun r h' =>
      (∃ cause, r = .error (.spawn j.shownAs cause) ∧ h'.files = h.files) ∨
      ∃ (s : Start) (o : Outcome), m.execute s h.files = .ok o ∧
        h.signals.blocked.Opens s.blocked ∧ r = .ok o.status ∧ h'.files = o.files ∧
        (h.signals.Masked →
          ∀ i ∈ o.sent, SignalSet.interrupts i = true → h'.signals.pending i = true) := by
  refine (j.exists_attempted m h).mono fun r h' hsent => ?_
  obtain ⟨sent, ha⟩ := hsent
  rcases ha.result with ⟨cause, -, hr, hfiles⟩ | ⟨o, hattempt, rfl, hr, hfiles⟩
  · exact .inl ⟨cause, hr, hfiles⟩
  · have hstart : ∃ s : Start, m.execute s h.files = .ok o ∧
        s.blocked = h.signals.blocked.diff .interrupts := by
      cases j <;> exact (Machine.execute_of_start hattempt).imp fun s hs => ⟨hs.1, hs.2.2⟩
    obtain ⟨s, hs, hblocked⟩ := hstart
    refine .inr ⟨s, o, hs, hblocked ▸ SignalSet.opens_diff _, hr, hfiles, ?_⟩
    intro hmasked i hmem hi
    rw [ha.signals]
    exact Bool.and_eq_true_iff.mpr
      ⟨pending_foldl_raise (masked_blockInterrupts _ i hi) hmem, hmasked i hi⟩

/-- Running a program does not depend on what would be done under a mask that does not open the
interrupts, or that changes anything else. -/
theorem run_executing (j : Job) {h : Host} {e : Start → Files → Except Errno Outcome}
    (he : ∀ s fs, h.signals.blocked.Opens s.blocked → e s fs = m.execute s fs) :
    (j.run (m.executing e)).run h = (j.run m).run h := by
  have hmask : ∀ s fs, s.blocked = h.signals.blocked.diff .interrupts → e s fs = m.execute s fs :=
    fun s fs hs => he s fs (hs ▸ SignalSet.opens_diff _)
  have hattempt : ∀ fs, j.attempt (m.executing e) (h.signals.blocked.diff .interrupts) fs =
      j.attempt m (h.signals.blocked.diff .interrupts) fs := by
    intro fs
    cases j <;> exact Machine.start_executing hmask _ _ _ fs
  have hblocked : (h.noted j.start).signals = h.signals := rfl
  rw [run_eq, run_eq, run_runAttempt, run_runAttempt, hblocked, hattempt]

end Job

/-! ## Sequences of calls -/

/-- A call that has to do with signals. -/
inductive Call where
  | block
  | drop
  | job (j : Job)
  | raise (signal : Signal)
  | poll
  | discard

/-- The masks that the guards remember, the last guard's first, and the host. -/
structure Guarded where
  guards : List SignalSet
  host : Host

/-- The signals behind the guards. -/
abbrev Guarded.signals (s : Guarded) : Signals := s.host.signals

/-- What a call does. Only the last guard can be dropped; where there is none, nothing is. -/
def Call.perform (m : Machine) (s : Guarded) : Call → Guarded
  | .block => ⟨s.signals.blocked :: s.guards, s.host.signalled (·.blockInterrupts)⟩
  | .drop =>
    match s.guards with
    | [] => s
    | mask :: guards => ⟨guards, s.host.signalled (·.setMask mask)⟩
  | .job j => ⟨s.guards, ((j.run m).run s.host).2⟩
  | .raise signal => ⟨s.guards, s.host.signalled (·.raise signal)⟩
  | .poll => ⟨s.guards, ((Host.poll m).run s.host).2⟩
  | .discard => ⟨s.guards, (Host.discardInterrupts.run s.host).2⟩

/-- What calls do, one after the other. -/
def Guarded.performAll (m : Machine) (s : Guarded) (calls : List Call) : Guarded :=
  calls.foldl (Call.perform m) s

/-- Once all interrupts have been discarded none is pending, and nothing else has changed about the
signals, nor any file. -/
theorem signals_withoutInterrupts (h : Host) :
    h.withoutInterrupts.signals =
        { h.signals with pending := h.signals.pending.diff .interrupts } ∧
      h.withoutInterrupts.files = h.files := by
  fun_induction withoutInterrupts h with
  | case1 h hnone =>
    have hpending : h.signals.pending.diff .interrupts = h.signals.pending := by
      funext t
      rw [SignalSet.diff]
      cases ht : SignalSet.interrupts t with
      | true => rw [pendingInterrupt?_eq_none hnone t ht, Bool.false_and]
      | false => rw [Bool.not_false, Bool.and_true]
    exact ⟨by rw [hpending], rfl⟩
  | case2 h i hseen ih =>
    have hp : h.signals.pending i = true := pending_of_pendingInterrupt? hseen
    have hi : SignalSet.interrupts i = true := by
      rcases pendingInterrupt?_eq_some hseen with ⟨-, rfl⟩ | ⟨-, -, rfl⟩ <;> rfl
    have hpending : (h.signals.pending.erase i).diff .interrupts =
        h.signals.pending.diff .interrupts := by
      funext t
      rw [SignalSet.diff, SignalSet.diff, SignalSet.erase]
      cases hti : t == i with
      | true => rw [beq_iff_eq.mp hti, hi, Bool.not_true, Bool.and_false, Bool.and_false]
      | false => rw [bne, hti, Bool.not_false, Bool.true_and]
    have hfiles : ((Host.discard i).run h).2.files = h.files := by
      show Leads (Host.discard i) h fun _ h' => h'.files = h.files
      unfold Host.discard
      rw [leads_bind, leads_get, if_pos hp, leads_bind, leads_modifySignals, leads_note]
      exact signalled_files _ _
    rw [signals_discard hp] at ih
    exact ⟨ih.1.trans (congrArg (fun pending => { h.signals with pending }) hpending),
      ih.2.trans hfiles⟩

/-- The mask behind a stack of guards, the first of which was taken under the mask `start`: each has
blocked the interrupts on top of the mask that it remembers. -/
inductive Nests (start : SignalSet) : List SignalSet → SignalSet → Prop
  | none : Nests start [] start
  | guard {guards : List SignalSet} {mask : SignalSet} (h : Nests start guards mask) :
    Nests start (mask :: guards) (mask.union .interrupts)

namespace Nests

variable {start mask : SignalSet} {guards : List SignalSet} {s : Guarded}

/-- Behind a guard the interrupts are blocked. -/
theorem masked (hn : Nests start guards mask) (hne : guards ≠ []) {i : Signal}
    (hi : SignalSet.interrupts i = true) : mask i = true := by
  cases hn with
  | none => exact absurd rfl hne
  | guard => exact Bool.or_eq_true_iff.mpr (.inr hi)

/-- Of the other signals those are blocked that were blocked at the start. -/
theorem others (hn : Nests start guards mask) {t : Signal} (ht : SignalSet.interrupts t = false) :
    mask t = start t := by
  induction hn with
  | none => rfl
  | guard _ ih => rw [SignalSet.union, ht, Bool.or_false, ih]

/-- A guard remembers the mask behind the guards below it. -/
theorem beneath {remembered : SignalSet} (hn : Nests start (remembered :: guards) mask) :
    Nests start guards remembered := by
  cases hn with
  | guard hn => exact hn

/-- Without guards the mask is that of the start. -/
theorem eq_start (hn : Nests start [] mask) : mask = start := by
  cases hn
  rfl

/-- Every call keeps the guards nested. -/
theorem perform (hn : Nests start s.guards s.signals.blocked) (c : Call) :
    Nests start (c.perform m s).guards (c.perform m s).signals.blocked := by
  cases c with
  | block =>
    show Nests start (_ :: s.guards) (s.host.signalled _).signals.blocked
    rw [signalled_signals]
    exact .guard hn
  | drop =>
    obtain ⟨guards, h⟩ := s
    cases guards with
    | nil => exact hn
    | cons mask guards =>
      show Nests start guards (h.signalled _).signals.blocked
      rw [signalled_signals]
      exact hn.beneath
  | job j =>
    obtain ⟨sent, ha⟩ := j.exists_attempted m s.host
    show Nests start s.guards ((j.run m).run s.host).2.signals.blocked
    rw [ha.blocked]
    exact hn
  | raise t =>
    show Nests start s.guards (s.host.signalled _).signals.blocked
    rw [signalled_signals, blocked_raise]
    exact hn
  | poll =>
    show Nests start s.guards ((m.arrivals s.host.polls).foldl raise s.signals).blocked
    rw [blocked_foldl_raise]
    exact hn
  | discard =>
    show Nests start s.guards s.host.withoutInterrupts.signals.blocked
    rw [(signals_withoutInterrupts s.host).1]
    exact hn

/-- Any number of calls keep the guards nested. -/
theorem performAll (hn : Nests start s.guards s.signals.blocked) (calls : List Call) :
    Nests start (s.performAll m calls).guards (s.performAll m calls).signals.blocked := by
  induction calls generalizing s with
  | nil => exact hn
  | cons c rest ih => exact ih (hn.perform c)

/-- From guard to guard no call delivers an interrupt. -/
theorem withholds (hn : Nests start s.guards s.signals.blocked) (hne : s.guards ≠ []) (c : Call)
    (hne' : (c.perform m s).guards ≠ []) : Withholds s.signals (c.perform m s).signals := by
  have hmasked : s.signals.Masked := fun _ hi => hn.masked hne hi
  cases c with
  | block =>
    show Withholds _ (s.host.signalled _).signals
    rw [signalled_signals]
    exact withholds_setMask _ (masked_blockInterrupts _)
  | drop =>
    obtain ⟨guards, h⟩ := s
    cases guards with
    | nil => exact absurd rfl hne
    | cons mask guards =>
      -- The mask that is restored is the one behind the guards below, of which there are some.
      show Withholds _ (h.signalled _).signals
      rw [signalled_signals]
      exact withholds_setMask _ fun _ hi => hn.beneath.masked hne' hi
  | job j =>
    obtain ⟨sent, ha⟩ := j.exists_attempted m s.host
    exact ha.withholds hmasked
  | raise t =>
    show Withholds _ (s.host.signalled _).signals
    rw [signalled_signals]
    exact withholds_raise hmasked t
  | poll => exact withholds_foldl_raise hmasked _
  | discard =>
    show Withholds _ s.host.withoutInterrupts.signals
    rw [(signals_withoutInterrupts s.host).1]
    exact rfl

end Nests

/-- No call loses an interrupt, unless it is the one that discards them. -/
theorem Call.conserves (m : Machine) (s : Guarded) {c : Call} (hc : c ≠ .discard) :
    Conserves s.signals (c.perform m s).signals := by
  cases c with
  | block =>
    show Conserves _ (s.host.signalled _).signals
    rw [signalled_signals]
    exact conserves_setMask _ _
  | drop =>
    obtain ⟨guards, h⟩ := s
    cases guards with
    | nil => exact .refl _
    | cons mask guards =>
      show Conserves _ (h.signalled _).signals
      rw [signalled_signals]
      exact conserves_setMask _ _
  | job j =>
    obtain ⟨sent, ha⟩ := j.exists_attempted m s.host
    exact ha.conserves
  | raise t =>
    show Conserves _ (s.host.signalled _).signals
    rw [signalled_signals]
    exact conserves_raise _ t
  | poll => exact conserves_foldl_raise _ _
  | discard => exact absurd rfl hc

/-- As long as there is a guard no interrupt is delivered, and unless they are discarded those that
are pending stay so. -/
theorem Nests.held {start : SignalSet} {s : Guarded} {calls : List Call}
    (hn : Nests start s.guards s.signals.blocked)
    (hheld : ∀ before, before <+: calls → (s.performAll m before).guards ≠ []) :
    Withholds s.signals (s.performAll m calls).signals ∧
      (Call.discard ∉ calls → ∀ i, SignalSet.interrupts i = true → s.signals.pending i = true →
        (s.performAll m calls).signals.pending i = true) := by
  induction calls generalizing s with
  | nil => exact ⟨rfl, fun _ _ _ hp => hp⟩
  | cons c rest ih =>
    have hne : s.guards ≠ [] := hheld [] List.nil_prefix
    have hne' : (c.perform m s).guards ≠ [] :=
      hheld [c] (List.cons_prefix_cons.mpr ⟨rfl, List.nil_prefix⟩)
    have hfirst : Withholds s.signals (c.perform m s).signals := hn.withholds hne c hne'
    obtain ⟨hwithholds, hkeeps⟩ := ih (hn.perform c) fun before hbefore =>
      hheld (c :: before) (List.cons_prefix_cons.mpr ⟨rfl, hbefore⟩)
    refine ⟨hwithholds.trans hfirst, fun hdiscard i hi hp => ?_⟩
    have hc : c ≠ .discard := fun hc => hdiscard (hc ▸ List.mem_cons_self)
    have hrest : Call.discard ∉ rest := fun hmem => hdiscard (List.mem_cons_of_mem _ hmem)
    exact hkeeps hrest i hi ((c.conserves m s hc).pending hfirst hi hp)

/-- What holds when calls have been made from a start without guards and under the mask `start`, and
have led to `s`. -/
structure Guarded.Upholds (m : Machine) (start : SignalSet) (s : Guarded) : Prop where
  /-- When the last guard has been dropped the mask is the one of the start. -/
  restored : s.guards = [] → s.signals.blocked = start
  /-- As long as there is a guard the interrupts are blocked. -/
  masked : s.guards ≠ [] → s.signals.Masked
  /-- No other signal is ever blocked or let through. -/
  others : ∀ t, SignalSet.interrupts t = false → s.signals.blocked t = start t
  /-- A signal that is raised while it is blocked is pending. -/
  raised : ∀ t, s.signals.blocked t = true →
    ((Call.raise t).perform m s).signals.pending t = true
  /-- From there on no interrupt is delivered as long as there is a guard, and those that are
  pending stay so, unless they are discarded. -/
  held : ∀ calls, (∀ before, before <+: calls → (s.performAll m before).guards ≠ []) →
    Withholds s.signals (s.performAll m calls).signals ∧
      (Call.discard ∉ calls → ∀ i, SignalSet.interrupts i = true → s.signals.pending i = true →
        (s.performAll m calls).signals.pending i = true)
  /-- No interrupt is lost by dropping the last guard, or by any other call but one. -/
  conserves : ∀ c : Call, c ≠ .discard → Conserves s.signals (c.perform m s).signals
  /-- To look for an interrupt changes nothing about what has arrived, and finds SIGINT first. -/
  polled : ∃ seen?,
    let arrived := (m.arrivals s.host.polls).foldl raise s.signals
    (poll m).run s.host = (seen?, { s.host with signals := arrived, polls := s.host.polls + 1 }) ∧
      (arrived.pending .interrupt = true → seen? = some .interrupt) ∧
      (arrived.pending .interrupt = false → arrived.pending .quit = true → seen? = some .quit) ∧
      (arrived.pending .interrupt = false → arrived.pending .quit = false → seen? = none)
  /-- To discard the interrupts leaves none pending and all else as it is. -/
  discarded : (discardInterrupts.run s.host).2.signals =
      { s.signals with pending := s.signals.pending.diff .interrupts } ∧
    (discardInterrupts.run s.host).2.files = s.host.files
  /-- A program that is run to its end has been started with the interrupts open and all else as it
  is for the tool; behind a guard the interrupts that it sends are pending. -/
  started : ∀ j : Job, Leads (j.run m) s.host fun r h' =>
    (∃ cause, r = .error (.spawn j.shownAs cause) ∧ h'.files = s.host.files) ∨
    ∃ (start : Start) (o : Outcome), m.execute start s.host.files = .ok o ∧
      s.signals.blocked.Opens start.blocked ∧ r = .ok o.status ∧ h'.files = o.files ∧
      (s.signals.Masked →
        ∀ i ∈ o.sent, SignalSet.interrupts i = true → h'.signals.pending i = true)
  /-- No other start is made on the way: what would be done under any other mask makes no
  difference. -/
  executing : ∀ (j : Job) (e : Start → Files → Except Errno Outcome),
    (∀ start fs, s.signals.blocked.Opens start.blocked → e start fs = m.execute start fs) →
      (j.run (m.executing e)).run s.host = (j.run m).run s.host

/-- The answer of a look for an interrupt. -/
theorem poll_answer (m : Machine) (h : Host) : ∃ seen?,
    let arrived := (m.arrivals h.polls).foldl raise h.signals
    (poll m).run h = (seen?, { h with signals := arrived, polls := h.polls + 1 }) ∧
      (arrived.pending .interrupt = true → seen? = some .interrupt) ∧
      (arrived.pending .interrupt = false → arrived.pending .quit = true → seen? = some .quit) ∧
      (arrived.pending .interrupt = false → arrived.pending .quit = false → seen? = none) := by
  refine ⟨_, rfl, fun hi => List.find?_cons_of_pos hi, fun hi hq => ?_, fun hi hq => ?_⟩
  · exact (List.find?_cons_of_neg (Bool.not_eq_true _ ▸ hi)).trans (List.find?_cons_of_pos hq)
  · exact (List.find?_cons_of_neg (Bool.not_eq_true _ ▸ hi)).trans
      (List.find?_cons_of_neg (Bool.not_eq_true _ ▸ hq))

/-- Whatever calls are made, guards restore the mask and hold the interrupts back, a look for an
interrupt changes nothing, discarding them ends and concerns nothing else, and programs are started
with the interrupts open. Here a call is to take a guard, to drop the last one, to run a program to
its end, to raise a signal, to look for an interrupt or to discard the interrupts; signals may also
come from programs, and arrive before each look. -/
theorem interrupts_masked (m : Machine) (h : Host) (calls : List Call) :
    (Guarded.performAll m ⟨[], h⟩ calls).Upholds m h.signals.blocked := by
  have hn : Nests h.signals.blocked (Guarded.performAll m ⟨[], h⟩ calls).guards
      (Guarded.performAll m ⟨[], h⟩ calls).signals.blocked := Nests.performAll .none calls
  generalize Guarded.performAll m ⟨[], h⟩ calls = s at hn
  exact
    { restored := fun hnil => by
        rw [hnil] at hn
        exact hn.eq_start
      masked := fun hne _ hi => hn.masked hne hi
      others := fun _ ht => hn.others ht
      raised := fun t ht => by
        show (s.host.signalled _).signals.pending t = true
        rw [signalled_signals]
        exact pending_raise ht
      held := fun _ hheld => hn.held hheld
      conserves := fun c hc => c.conserves m s hc
      polled := poll_answer m s.host
      discarded := signals_withoutInterrupts s.host
      started := fun j => j.started m s.host
      executing := fun j _ he => j.run_executing he }

end Host

end CxxScript

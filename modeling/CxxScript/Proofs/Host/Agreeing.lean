import CxxScript.Host.Spawn
import CxxScript.Proofs.Host.Alike

/-!
# Two hosts side by side

Two hosts are alike when nothing that the tool looks at tells them apart but contents that may
differ. `Host.Agree` follows two pieces of work from such hosts side by side, with one rule for each
way in which steps are put together. Of programs it has to be said that they overlook what differs,
`Machine.Overlooks`.
-/

set_option autoImplicit false

namespace CxxScript

/-! ## Steps of two hosts -/

namespace Host

variable {α β α' β' : Type} {R : Location → Bytes → Bytes → Prop} {m : Machine} {h h' : Host}

/-- Nothing that the tool looks at tells two hosts apart but contents that may differ. -/
structure Alike (R : Location → Bytes → Bytes → Prop) (h h' : Host) : Prop where
  files : h.files.Alike R h'.files
  signals : h'.signals = h.signals
  polls : h'.polls = h.polls

/-- From two hosts two pieces of work lead to results that are related and to hosts that are
alike. -/
def Agree (R : Location → Bytes → Bytes → Prop) (x : StateM Host α) (h : Host)
    (x' : StateM Host α') (h' : Host) (Q : α → α' → Prop) : Prop :=
  Q (x.run h).1 (x'.run h').1 ∧ Alike R (x.run h).2 (x'.run h').2

/-- A result by itself. -/
theorem Agree.pure (halike : Alike R h h') {a : α} {a' : α'} {Q : α → α' → Prop} (hQ : Q a a') :
    Agree R (Pure.pure a) h (Pure.pure a') h' Q := ⟨hQ, halike⟩

/-- What sequences lead to is what their second parts lead to from where the first parts end. -/
theorem agree_bind (x : StateM Host α) (f : α → StateM Host β) (x' : StateM Host α')
    (f' : α' → StateM Host β') (Q : β → β' → Prop) : Agree R (x >>= f) h (x' >>= f') h' Q ↔
      Agree R (f (x.run h).1) (x.run h).2 (f' (x'.run h').1) (x'.run h').2 Q := Iff.rfl

/-- What looks at the hosts leads to what follows with each of them. -/
theorem agree_get (f : Host → StateM Host α) (f' : Host → StateM Host α') (Q : α → α' → Prop) :
    Agree R (get >>= f) h (get >>= f') h' Q ↔ Agree R (f h) h (f' h') h' Q := Iff.rfl

/-- Two steps agree, and so does what follows them wherever they lead. -/
theorem Agree.bind {x : StateM Host α} {f : α → StateM Host β} {x' : StateM Host α'}
    {f' : α' → StateM Host β'} {P : α → α' → Prop} {Q : β → β' → Prop} (hx : Agree R x h x' h' P)
    (hf : ∀ a a' k k', P a a' → Alike R k k' → Agree R (f a) k (f' a') k' Q) :
    Agree R (x >>= f) h (x' >>= f') h' Q := hf _ _ _ _ hx.1 hx.2

/-- Two steps have the same result, and what follows them agrees wherever they lead. -/
theorem Agree.step {x x' : StateM Host α} {f : α → StateM Host β} {f' : α → StateM Host β'}
    {Q : β → β' → Prop} (hx : Agree R x h x' h' fun a a' => a' = a)
    (hf : ∀ a k k', Alike R k k' → Agree R (f a) k (f' a) k' Q) :
    Agree R (x >>= f) h (x' >>= f') h' Q :=
  hx.bind fun a _ k k' hsame halike => by
    subst hsame
    exact hf _ k k' halike

/-- Two steps have the same result and leave something that is related, and what follows them agrees
wherever they lead. -/
theorem Agree.both {γ γ' : Type} {x : StateM Host (α × γ)} {x' : StateM Host (α × γ')}
    {f : α × γ → StateM Host β} {f' : α × γ' → StateM Host β'} {P : γ → γ' → Prop}
    {Q : β → β' → Prop} (hx : Agree R x h x' h' fun r r' => r'.1 = r.1 ∧ P r.2 r'.2)
    (hf : ∀ a c c' k k', P c c' → Alike R k k' → Agree R (f (a, c)) k (f' (a, c')) k' Q) :
    Agree R (x >>= f) h (x' >>= f') h' Q :=
  hx.bind fun r r' k k' hr halike => by
    obtain ⟨a, c⟩ := r
    obtain ⟨a', c'⟩ := r'
    obtain ⟨hsame, hrelated⟩ := hr
    obtain rfl : a' = a := hsame
    exact hf a' c c' k k' hrelated halike

/-- What is weaker is agreed on too. -/
theorem Agree.mono {x : StateM Host α} {x' : StateM Host α'} {P Q : α → α' → Prop}
    (hx : Agree R x h x' h' P) (hPQ : ∀ a a', P a a' → Q a a') : Agree R x h x' h' Q :=
  ⟨hPQ _ _ hx.1, hx.2⟩

/-- Two runs that are known agree on their results. -/
theorem agree_of_run {x : StateM Host α} {x' : StateM Host α'} {a : α} {a' : α'} {k k' : Host}
    (hx : x.run h = (a, k)) (hx' : x'.run h' = (a', k')) (Q : α → α' → Prop) :
    Agree R x h x' h' Q ↔ Q a a' ∧ Alike R k k' := by rw [Agree, hx, hx']

/-- Nothing that the tool looks at is in what has been written down. -/
theorem Alike.withEvents (halike : Alike R h h') (es es' : List Event) :
    Alike R { h with events := es } { h' with events := es' } :=
  ⟨halike.files, halike.signals, halike.polls⟩

/-- Hosts that are alike are so if more may differ. -/
theorem Alike.mono {S : Location → Bytes → Bytes → Prop} (halike : Alike R h h')
    (hRS : ∀ at_ c c', R at_ c c' → S at_ c c') : Alike S h h' :=
  ⟨halike.files.mono hRS, halike.signals, halike.polls⟩

/-- Whatever is written down. -/
theorem agree_emit (halike : Alike R h h') (e e' : Event) :
    Agree R (emit e) h (emit e') h' fun a a' => a' = a := ⟨rfl, halike.withEvents _ _⟩

/-- Looking for an interrupt. -/
theorem agree_poll (m : Machine) (halike : Alike R h h') :
    Agree R (poll m) h (poll m) h' fun a a' => a' = a := by
  have hsignals : (m.arrivals h'.polls).foldl Signals.raise h'.signals =
      (m.arrivals h.polls).foldl Signals.raise h.signals := by
    rw [halike.polls, halike.signals]
  have hpolls : h'.polls + 1 = h.polls + 1 := by rw [halike.polls]
  exact ⟨congrArg Signals.pendingInterrupt? hsignals, halike.files, hsignals, hpolls⟩

/-- Changes to the files that agree. -/
theorem agree_change {step step' : Files → Except IoError (α × Files)} (halike : Alike R h h')
    (hstep : Likewise (fun r r' => r'.1 = r.1 ∧ r.2.Alike R r'.2) (step h.files)
      (step' h'.files)) : Agree R (change step) h (change step') h' fun a a' => a' = a := by
  rcases hstep.split with ⟨e, he, he'⟩ | ⟨r, r', hr, hr', hsame, hfiles⟩
  · rw [agree_of_run (run_change_error he) (run_change_error he')]
    exact ⟨rfl, halike⟩
  · rw [agree_of_run (run_change_ok hr) (run_change_ok hr')]
    exact ⟨congrArg Except.ok hsame, hfiles, halike.signals, halike.polls⟩

/-- Opening a file for appending. -/
theorem agree_openAppend (m : Machine) (p : Path) (halike : Alike R h h') :
    Agree R (openAppend m p) h (openAppend m p) h' fun a a' => a' = a :=
  agree_change halike (Files.openAppend_alike halike.files m.cwd p)

/-- Opening a file to be written from its start. -/
theorem agree_create (m : Machine) (p : Path) (halike : Alike R h h') :
    Agree R (create m p) h (create m p) h' fun a a' => a' = a := by
  refine agree_change halike ?_
  rcases (Files.create_alike halike.files m.cwd p).split with
    ⟨e, he, he'⟩ | ⟨r, r', hr, hr', hsame, hfiles, -⟩
  · rw [he, he']
    exact .error e
  · rw [hr, hr']
    exact .ok ⟨hsame, hfiles⟩

/-- Adding bytes to what is the same in both. What has been added may differ where contents may. -/
theorem agree_append {at_ : Location} {bytes bytes' : Bytes} (halike : Alike R h h')
    (hget : h'.files.get? at_ = h.files.get? at_) (hempty : bytes'.isEmpty = bytes.isEmpty)
    (hcontent : ∀ c executable, h.files.get? at_ = some (.file c executable) →
      Entry.Alike R at_ (.file (c ++ bytes) executable) (.file (c ++ bytes') executable)) :
    Agree R (append at_ bytes) h (append at_ bytes') h' fun a a' => a' = a := by
  have hchange : Agree R (change fun fs => (fs.append at_ bytes).map fun fs => ((), fs)) h
      (change fun fs => (fs.append at_ bytes').map fun fs => ((), fs)) h' fun a a' => a' = a := by
    refine agree_change halike ?_
    rcases (Files.append_alike halike.files hget hempty hcontent).split with
      ⟨e, he, he'⟩ | ⟨fs, fs', hfs, hfs', hfiles⟩
    · rw [he, he']
      exact .error e
    · rw [hfs, hfs']
      exact .ok ⟨rfl, hfiles⟩
  unfold append
  rw [agree_get, hget]
  split
  · split
    · exact (agree_emit halike _ _).step fun _ k k' hk => .pure hk rfl
    · exact .pure halike rfl
  · exact hchange

/-- Making a directory together with those above it. -/
theorem agree_makeDirectories (m : Machine) (p : Path) (halike : Alike R h h') :
    Agree R (makeDirectories m p) h (makeDirectories m p) h' fun a a' => a' = a := by
  obtain ⟨hsame, hfiles⟩ := Files.makeDirectories_alike halike.files m.cwd p
  exact ⟨hsame, hfiles, halike.signals, halike.polls⟩

/-- A regular file is there for both. -/
theorem isFile_alike (halike : Alike R h h') (m : Machine) (p : Path) :
    h'.isFile m p = h.isFile m p := Files.isFile_alike halike.files m.cwd p

end Host

/-! ## Programs -/

/-- A program did the same and has left files that are alike. -/
structure Outcome.Alike (R : Location → Bytes → Bytes → Prop) (o o' : Outcome) : Prop where
  status : o'.status = o.status
  files : o.files.Alike R o'.files
  written : o'.written = o.written
  sent : o'.sent = o.sent

namespace Machine

variable {R : Location → Bytes → Bytes → Prop} {m : Machine} {fs fs' : Files}
  {argv : List String}

/-- With an argument vector no program looks at what differs. -/
def OverlooksAt (m : Machine) (R : Location → Bytes → Bytes → Prop) (argv : List String) : Prop :=
  ∀ s fs fs', s.argv = argv → fs.Alike R fs' →
    Likewise (Outcome.Alike R) (m.execute s fs) (m.execute s fs')

/-- The programs that some commands start do not look at what differs. -/
def Overlooks (m : Machine) (R : Location → Bytes → Bytes → Prop) (P : Command → Prop) : Prop :=
  ∀ c, P c → m.OverlooksAt R c.words

/-- Opening a file as a program and running it. -/
theorem executeFile_alike (hm : m.OverlooksAt R argv) (halike : fs.Alike R fs') (name : String)
    (blocked : SignalSet) : Likewise (Outcome.Alike R) (m.executeFile name argv blocked fs)
      (m.executeFile name argv blocked fs') := by
  unfold executeFile
  rcases (Files.find_alike halike m.cwd ⟨name⟩).split with
    ⟨e, he, he'⟩ | ⟨⟨at_, e⟩, ⟨at', e'⟩, hf, hf', hat, hentry⟩
  · rw [he, he']
    cases e <;> exact .error _
  · obtain rfl : at' = at_ := hat
    rw [hf, hf']
    cases hentry with
    | file executable hR =>
      cases executable with
      | true => exact hm _ _ _ rfl halike
      | false => exact .error _
    | same =>
      cases e with
      | directory => exact .error _
      | link target => exact .error _
      | device d => exact .error _
      | file content executable =>
        cases executable with
        | true => exact hm _ _ _ rfl halike
        | false => exact .error _

/-- Trying paths in turn. -/
theorem tryEach_likewise {α : Type} {Q : α → α → Prop} {attempt attempt' : String → Except Errno α}
    (hattempt : ∀ path, Likewise Q (attempt path) (attempt' path)) (failure : Errno) (denied : Bool)
    (paths : List String) : Likewise Q (SearchPath.tryEach attempt failure denied paths)
      (SearchPath.tryEach attempt' failure denied paths) := by
  induction paths generalizing failure denied with
  | nil => exact .error _
  | cons path rest ih =>
    rw [SearchPath.tryEach, SearchPath.tryEach]
    rcases (hattempt path).split with ⟨e, he, he'⟩ | ⟨o, o', ho, ho', hQ⟩
    · rw [he, he']
      dsimp only
      split
      · exact ih _ _
      · exact .error _
    · rw [ho, ho']
      exact .ok hQ

/-- Starting a program by its name and running it to its end. -/
theorem start_alike (hm : m.OverlooksAt R argv) (halike : fs.Alike R fs') (program : String)
    (blocked : SignalSet) : Likewise (Outcome.Alike R) (m.start false program argv blocked fs)
      (m.start false program argv blocked fs') := by
  have hattempt : ∀ path, Likewise (Outcome.Alike R) (m.executeNamed false path argv blocked fs)
      (m.executeNamed false path argv blocked fs') := by
    intro path
    rcases (executeFile_alike hm halike path blocked).split with ⟨e, he, he'⟩ | ⟨o, o', ho, ho', hQ⟩
    · rw [executeNamed, executeNamed, he, he']
      exact .error _
    · rw [executeNamed, executeNamed, ho, ho']
      exact .ok hQ
  have hfirst : Likewise (Outcome.Alike R)
      (SearchPath.firstOf (fun path => m.executeNamed false path argv blocked fs) m.searchPath
        program)
      (SearchPath.firstOf (fun path => m.executeNamed false path argv blocked fs') m.searchPath
        program) := by
    unfold SearchPath.firstOf
    split
    · exact .error _
    split
    · exact hattempt program
    split
    · exact .error _
    · exact tryEach_likewise hattempt _ _ _
  unfold start
  split
  · exact .error _
  · rcases hfirst.split with ⟨e, he, he'⟩ | ⟨o, o', ho, ho', hQ⟩
    · dsimp only
      rw [he, he']
      exact .error _
    · dsimp only
      rw [ho, ho']
      exact .ok hQ

end Machine

namespace Host

variable {R : Location → Bytes → Bytes → Prop} {m : Machine} {h h' : Host}

/-- What programs that did the same leave. -/
theorem alike_absorb (halike : Alike R h h') {o o' : Outcome} (ho : o.Alike R o')
    (shown shown' : Stream → Bool) : Alike R (h.absorb o shown) (h'.absorb o' shown') := by
  have hpolls : ∀ k : Host, k.settle.polls = k.polls := by
    intro k
    unfold settle
    split <;> rfl
  refine ⟨?_, ?_, ?_⟩
  · rw [absorb, absorb, settle_files, settle_files]
    exact ho.files
  · rw [absorb, absorb, settle_signals, settle_signals]
    dsimp only
    rw [ho.sent, halike.signals]
  · rw [absorb, absorb, hpolls, hpolls]
    exact halike.polls

/-- Running a command that overlooks what differs, for what it writes. -/
theorem agree_capture (halike : Alike R h h') {c : Command} (hm : m.OverlooksAt R c.words) :
    Agree R (capture m c) h (capture m c) h' fun a a' => a' = a := by
  unfold capture
  refine (agree_emit halike _ _).step fun _ k k' hk => ?_
  rw [agree_get, hk.signals]
  rcases (Machine.start_alike hm hk.files c.program k.signals.blocked).split with
    ⟨e, he, he'⟩ | ⟨o, o', ho, ho', hQ⟩
  · rw [he, he']
    exact .pure hk rfl
  · rw [ho, ho']
    have houtput : outputText o' = outputText o := by rw [outputText, outputText, hQ.written]
    have hmodify : ∀ shown, Agree R (modify (·.absorb o shown)) k (modify (·.absorb o' shown)) k'
        fun a a' => a' = a := fun shown => ⟨rfl, alike_absorb hk hQ shown shown⟩
    refine (hmodify _).step fun _ j j' hj => .pure hj ?_
    rw [hQ.status, houtput]

end Host

end CxxScript

import CxxScript.Build.Scan
import CxxScript.Proofs.Build.Placing

/-!
# What a scan does to a unit and to the host

Reading the lines of a file changes nothing of its unit but the flags, and only adds to the units
that the file refers to; each of those is made from a path and the host as it is at that moment:
`readLines_extends`. What a scan does to the host is left open: it is any relation that the single
steps keep, `Scan.Frame` for the reading and `ScanFrame` for the whole scan. `scan_outcome` puts
the two together.
-/

set_option autoImplicit false

namespace CxxScript

open Host

/-- Whether an event is one that a scan writes down itself once it has begun, apart from the
programs it runs. -/
def Event.isOfScan : Event → Bool
  | .note (.sourcing _) | .note (.copying ..) => true
  | .warning (.packageUnavailable ..) => true
  | .diagnostic _ => true
  | _ => false

/-- A relation between hosts that every step of reading a file's lines keeps. -/
structure Scan.Frame (m : Machine) (cfg : Config) (R : Host → Host → Prop) : Prop where
  refl : ∀ h, R h h
  trans : ∀ {a b c}, R a b → R b c → R a c
  emit : ∀ (e : Event) (h : Host), e.isOfScan = true → Leads (Host.emit e) h fun _ h' => R h h'
  poll : ∀ h, Leads (Host.poll m) h fun _ h' => R h h'
  query : ∀ requirement h,
    Leads (Package.flagsFor m cfg.pkgConfig requirement) h fun _ h' => R h h'

/-- A relation between hosts that every step of a scan keeps. -/
structure ScanFrame (m : Machine) (cfg : Config) (R : Host → Host → Prop) : Prop
    extends Scan.Frame m cfg R where
  openCopy : ∀ (u : CompilationUnit) h, Leads (u.openCopy m cfg) h fun _ h' => R h h'
  append : ∀ at_ bytes h, Leads (Host.append at_ bytes) h fun _ h' => R h h'

namespace CompilationUnit

/-- The unit `u'` differs from `u` in its flags alone. -/
def Flagged (u u' : CompilationUnit) : Prop :=
  u' = { u with flags := u'.flags, privateFlags := u'.privateFlags }

/-- A unit may keep its flags. -/
theorem Flagged.refl (u : CompilationUnit) : u.Flagged u := rfl

/-- New flags upon new flags are new flags. -/
theorem Flagged.trans {a b c : CompilationUnit} (h : a.Flagged b) (h' : b.Flagged c) :
    a.Flagged c := by
  unfold Flagged at h h' ⊢
  rw [h'] at *
  rw [h]

/-- A unit with other flags has the same copy. -/
theorem Flagged.copy {u u' : CompilationUnit} (h : u.Flagged u') : u'.copy = u.copy := by
  unfold Flagged at h
  rw [h]

/-- Pushing flags changes the flags alone. -/
theorem flagged_pushFlags (u : CompilationUnit) (run : List String) :
    u.Flagged (u.pushFlags run).2 := rfl

/-- Pushing private flags changes the flags alone. -/
theorem flagged_pushPrivateFlags (u : CompilationUnit) (run : List String) :
    u.Flagged (u.pushPrivateFlags run).2 := rfl

/-- The unit was made from a path in a host that `h` leads to. -/
def MadeAfter (m : Machine) (R : Host → Host → Prop) (h : Host) (u : CompilationUnit) : Prop :=
  ∃ h' kind p, R h h' ∧ u = .ofPath m h' kind p

/-- A unit that has just been made is not scanned. -/
theorem MadeAfter.not_scanned {m : Machine} {R : Host → Host → Prop} {h : Host}
    {u : CompilationUnit} (hu : u.MadeAfter m R h) : u.scanned = false := by
  obtain ⟨h', kind, p, -, rfl⟩ := hu
  rfl

/-- What was made later was made after what comes before. -/
theorem MadeAfter.mono {m : Machine} {R : Host → Host → Prop}
    (htrans : ∀ a b c, R a b → R b c → R a c) {h h' : Host} {u : CompilationUnit}
    (hR : R h h') (hu : u.MadeAfter m R h') : u.MadeAfter m R h := by
  obtain ⟨h'', kind, p, hR', rfl⟩ := hu
  exact ⟨h'', kind, p, htrans _ _ _ hR hR', rfl⟩

end CompilationUnit

namespace Scan

/-- How a scan gets from `s` and `h` to `s'` and `h'`: the unit gets flags, units that were made on
the way join those it refers to, and `R` holds between the hosts. -/
structure Extends (m : Machine) (R : Host → Host → Prop) (s : Scan) (h : Host) (s' : Scan)
    (h' : Host) : Prop where
  unit : s.unit.Flagged s'.unit
  found : ∃ more, s'.found = s.found ++ more ∧ ∀ u ∈ more, u.MadeAfter m R h
  host : R h h'

variable {m : Machine} {cfg : Config} {R : Host → Host → Prop}

/-- A scan may stand still. -/
theorem Extends.refl (F : Frame m cfg R) (s : Scan) (h : Host) : Extends m R s h s h :=
  ⟨.refl _, ⟨[], by simp, by simp⟩, F.refl h⟩

/-- One stretch of a scan after the other is a stretch. -/
theorem Extends.trans (F : Frame m cfg R) {a b c : Scan} {h h' h'' : Host}
    (hab : Extends m R a h b h') (hbc : Extends m R b h' c h'') : Extends m R a h c h'' := by
  obtain ⟨more, hm, hmade⟩ := hab.found
  obtain ⟨more', hm', hmade'⟩ := hbc.found
  refine ⟨hab.unit.trans hbc.unit, ⟨more ++ more', ?_, ?_⟩, F.trans hab.host hbc.host⟩
  · rw [hm', hm, List.append_assoc]
  · intro u hu
    rcases List.mem_append.mp hu with hu | hu
    · exact hmade u hu
    · exact .mono (R := R) (fun _ _ _ => F.trans) hab.host (hmade' u hu)

/-- Only the host has changed. -/
theorem Extends.of_host (s : Scan) {h h' : Host} (hR : R h h') : Extends m R s h s h' :=
  ⟨.refl _, ⟨[], by simp, by simp⟩, hR⟩

/-- Only the flags have changed. -/
theorem Extends.of_unit (F : Frame m cfg R) {s s' : Scan} (h : Host) (hu : s.unit.Flagged s'.unit)
    (hf : s'.found = s.found) : Extends m R s h s' h :=
  ⟨hu, ⟨[], by simp [hf], by simp⟩, F.refl h⟩

/-- A unit that is referred to changes nothing about the one that is scanned. -/
theorem unit_refer (s : Scan) (u : CompilationUnit) : (s.refer u).unit = s.unit := by
  unfold refer
  split <;> rfl

/-- A unit that is referred to is not reported. -/
theorem diagnostics_refer (s : Scan) (u : CompilationUnit) :
    (s.refer u).diagnostics = s.diagnostics := by
  unfold refer
  split <;> rfl

/-- A unit that has just been made is referred to. -/
theorem extends_refer (F : Frame m cfg R) (s : Scan) (h : Host) (kind : UnitKind) (p : Path) :
    Extends m R s h (s.refer (.ofPath m h kind p)) h := by
  unfold refer
  split
  · exact .refl F s h
  · refine ⟨.refl _, ⟨[.ofPath m h kind p], rfl, ?_⟩, F.refl h⟩
    intro u hu
    rw [List.mem_singleton] at hu
    exact ⟨h, kind, p, F.refl h, hu⟩

/-- Following a directive. -/
theorem apply_extends (F : Frame m cfg R) (position : Source.Position) (d : Source.Directive)
    (s : Scan) (h : Host) :
    Leads (s.apply m cfg position d) h fun s' h' => Extends m R s h s' h' := by
  unfold apply
  split
  · exact .of_unit F h (CompilationUnit.flagged_pushFlags _ _) rfl
  · exact .refl F s h
  · exact .of_unit F h (CompilationUnit.flagged_pushFlags _ _) rfl
  · exact .of_unit F h (CompilationUnit.flagged_pushPrivateFlags _ _) rfl
  · next value =>
    refine Leads.bind (F.query value h) fun r h' hR => ?_
    have hhost : Extends m R s h s h' := .of_host s hR
    cases r with
    | ok flags =>
      exact hhost.trans F (.of_unit F h' (CompilationUnit.flagged_pushFlags _ _) rfl)
    | error e => exact hhost.trans F (.of_unit F h' (.refl _) rfl)
  · split
    · next target _ =>
      refine Leads.bind (F.emit _ h rfl) fun _ h' hR => ?_
      exact Extends.trans F (.of_host s hR) (extends_refer F s h' .source _)
    · exact .of_unit F h (.refl _) rfl
  · exact .of_unit F h (.refl _) rfl
  · exact .of_unit F h (.refl _) rfl

/-- Following an include. -/
theorem follow_extends (F : Frame m cfg R) (index : Nat) (i : Source.Include) (s : Scan)
    (h : Host) : Leads (s.follow m cfg index i) h fun s' h' => Extends m R s h s' h' := by
  unfold follow
  cases i with
  | beside target =>
    rw [leads_bind, leads_get]
    have hheader : Extends m R s h
        (if h.isFile m (s.unit.path.resolveFrom target) then
          s.refer (.ofPath m h .header (s.unit.path.resolveFrom target)) else s) h := by
      split
      · exact extends_refer F s h .header _
      · exact .refl F s h
    dsimp only
    split
    · exact hheader.trans F (extends_refer F _ h .source _)
    · exact hheader
  | system header =>
    dsimp only
    split
    · exact .of_unit F h (CompilationUnit.flagged_pushFlags _ _) rfl
    · next name _ =>
      refine Leads.bind (F.query name h) fun r h' hR => ?_
      have hhost : Extends m R s h s h' := .of_host s hR
      cases r with
      | ok flags =>
        exact hhost.trans F (.of_unit F h' (CompilationUnit.flagged_pushFlags _ _) rfl)
      | error e =>
        refine Leads.bind (F.emit _ h' rfl) fun _ h'' hR' => ?_
        exact hhost.trans F (.of_host s hR')
    · exact .refl F s h

/-- Following an include keeps what neither a unit that is referred to nor a shared flag changes. -/
theorem follow_keeps {β : Type} {f : Scan → β} (hrefer : ∀ s u, f (s.refer u) = f s)
    (hpush : ∀ s run, f (s.pushFlags run) = f s) (index : Nat) (i : Source.Include) (s : Scan)
    (h : Host) : Leads (s.follow m cfg index i) h fun s' _ => f s' = f s := by
  unfold follow
  cases i with
  | beside target =>
    rw [leads_bind, leads_get]
    dsimp only
    have hheader : f (if h.isFile m (s.unit.path.resolveFrom target) then
        s.refer (.ofPath m h .header (s.unit.path.resolveFrom target)) else s) = f s := by
      split
      · exact hrefer s _
      · rfl
    split
    · exact (hrefer _ _).trans hheader
    · exact hheader
  | system header =>
    dsimp only
    split
    · exact hpush s _
    · refine Leads.skip fun r h' => ?_
      cases r with
      | ok flags => exact hpush s _
      | error e => exact Leads.skip fun _ _ => rfl
    · exact rfl

/-- Following the directive on a line, if there is one. -/
def direct (m : Machine) (cfg : Config) (index : Nat) (line : List Char) (s : Scan) :
    StateM Host Scan :=
  match directiveOn? index line with
  | some (position, d) => s.apply m cfg position d
  | none => pure s

/-- Following an include, if there is one. -/
def followAny (m : Machine) (cfg : Config) (index : Nat) (s : Scan) :
    Option Source.Include → StateM Host Scan
  | some i => s.follow m cfg index i
  | none => pure s

/-- A line's directive is followed, then its include. -/
theorem readLine_eq (m : Machine) (cfg : Config) (index : Nat) (line : List Char) (s : Scan) :
    s.readLine m cfg index line = s.direct m cfg index line >>= fun s =>
      s.followAny m cfg index (Source.Include.ofLine? line) := by
  unfold readLine direct
  cases Source.Include.ofLine? line <;> cases directiveOn? index line <;> rfl

/-- Reading a line: what its directive leads to, and its include keeps. -/
theorem readLine_leads {index : Nat} {line : List Char} {s : Scan} {h : Host}
    {Q : Scan → Host → Prop} (hnone : directiveOn? index line = none → Q s h)
    (hsome : ∀ position d, directiveOn? index line = some (position, d) →
      Leads (s.apply m cfg position d) h Q)
    (hfollow : ∀ i s' h', Q s' h' → Leads (s'.follow m cfg index i) h' Q) :
    Leads (s.readLine m cfg index line) h Q := by
  unfold readLine
  cases Source.Include.ofLine? line with
  | none =>
    cases hd : directiveOn? index line with
    | none => exact hnone hd
    | some found => exact hsome _ _ hd
  | some i =>
    cases hd : directiveOn? index line with
    | none => exact hfollow i s h (hnone hd)
    | some found => exact Leads.bind (hsome _ _ hd) (hfollow i)

/-- Reading a line goes on from where the scan is. -/
theorem readLine_extends (F : Frame m cfg R) (index : Nat) (line : List Char) (s : Scan)
    (h : Host) : Leads (s.readLine m cfg index line) h fun s' h' => Extends m R s h s' h' := by
  refine readLine_leads (fun _ => .refl F s h) (fun position d _ => apply_extends F position d s h)
    fun i s' h' hs' => ?_
  exact (follow_extends F index i s' h').mono fun _ _ h'' => hs'.trans F h''

/-- Reading lines, up to an interrupt. -/
theorem readLines_extends (F : Frame m cfg R) (index : Nat) (lines : List Bytes) (s : Scan)
    (h : Host) :
    Leads (readLines m cfg index lines s) h fun r h' => Extends m R s h r.2 h' := by
  induction lines generalizing index s h with
  | nil => exact .refl F s h
  | cons line rest ih =>
    unfold readLines
    refine Leads.bind (F.poll h) fun signal h₁ hR => ?_
    have hpoll : Extends m R s h s h₁ := .of_host s hR
    cases signal with
    | some signal => exact hpoll
    | none =>
      refine Leads.bind (readLine_extends F index _ s h₁) fun s' h₂ hs' => ?_
      exact (ih (index + 1) s' h₂).mono fun _ _ hr => (hpoll.trans F hs').trans F hr

end Scan

namespace CompilationUnit

variable {m : Machine} {cfg : Config} {R : Host → Host → Prop}

/-- The unit `u'` is for the same file as `u`, known by the same key and of the same kind, and has
the same object and executable. -/
structure Follows (u u' : CompilationUnit) : Prop where
  path : u'.path = u.path
  identity : u'.identity = u.identity
  kind : u'.kind = u.kind
  object? : u'.object? = u.object?
  executable? : u'.executable? = u.executable?

/-- A unit follows itself. -/
theorem Follows.refl (u : CompilationUnit) : u.Follows u := ⟨rfl, rfl, rfl, rfl, rfl⟩

/-- What follows a unit that follows another follows that one. -/
theorem Follows.trans {a b c : CompilationUnit} (h : a.Follows b) (h' : b.Follows c) :
    a.Follows c :=
  ⟨h'.path.trans h.path, h'.identity.trans h.identity, h'.kind.trans h.kind,
    h'.object?.trans h.object?, h'.executable?.trans h.executable?⟩

/-- A unit with other flags follows the one without. -/
theorem Flagged.follows {u u' : CompilationUnit} (h : u.Flagged u') : u.Follows u' := by
  unfold Flagged at h
  rw [h]
  exact ⟨rfl, rfl, rfl, rfl, rfl⟩

/-- The unit `u'` follows `u`, and its copy has at most been put at another site. -/
structure Copies (m : Machine) (cfg : Config) (u u' : CompilationUnit) : Prop where
  follows : u.Follows u'
  scanned : u'.scanned = u.scanned
  copy : ∃ s : Site, u'.copy = s.path m cfg.cacheRoot u.copy

/-- A unit copies itself. -/
theorem Copies.refl (u : CompilationUnit) : u.Copies m cfg u := ⟨.refl u, rfl, .beside, rfl⟩

/-- A unit with a place for its copy is one with a copy. -/
theorem copied_withCopyAt (u : CompilationUnit) (place : Placement) :
    (u.withCopyAt place).copied = true := by
  unfold withCopyAt
  split <;> rfl

/-- A unit whose copy has found a place copies the one whose copy has none. -/
theorem copies_withCopyAt (u : CompilationUnit) (s : Site) :
    u.Copies m cfg (u.withCopyAt (s.placement m cfg.cacheRoot u.copy)) := by
  cases s with
  | beside => exact ⟨⟨rfl, rfl, rfl, rfl, rfl⟩, rfl, .beside, rfl⟩
  | below seen => exact ⟨⟨rfl, rfl, rfl, rfl, rfl⟩, rfl, .below seen, rfl⟩

/-- Opening the copy of a unit. -/
theorem openCopy_outcome (u : CompilationUnit) (h : Host) :
    Leads (u.openCopy m cfg) h fun r _ => u.Copies m cfg r.2 := by
  unfold openCopy
  split
  · exact .refl u
  · refine Leads.bind (Placement.find_site m cfg.cacheRoot u.copy h) fun r h' hsite => ?_
    cases r with
    | error cause => exact .refl u
    | ok place =>
      obtain ⟨s, rfl⟩ := hsite place rfl
      exact copies_withCopyAt u s

end CompilationUnit

namespace Scan

variable {m : Machine} {cfg : Config} {R : Host → Host → Prop}

/-- Writing the copy that a file's content calls for. -/
theorem writeCopy_outcome (F : ScanFrame m cfg R) (content : Bytes) (u : CompilationUnit)
    (h : Host) : Leads (writeCopy m cfg content u) h fun r h' =>
      u.Copies m cfg r.2 ∧ R h h' := by
  unfold writeCopy
  split
  · exact ⟨.refl u, F.refl h⟩
  · have hopen : Leads (u.openCopy m cfg) h fun r h' => u.Copies m cfg r.2 ∧ R h h' :=
      ⟨CompilationUnit.openCopy_outcome u h, F.openCopy u h⟩
    refine Leads.bind hopen fun r h₁ hr => ?_
    obtain ⟨hu, hR⟩ := hr
    obtain ⟨r, u'⟩ := r
    cases r with
    | error cause => exact ⟨hu, hR⟩
    | ok at_ =>
      refine Leads.bind (F.emit _ h₁ rfl) fun _ h₂ hR' => ?_
      refine Leads.bind (F.append at_ _ h₂) fun _ h₃ hR'' => ?_
      exact ⟨hu, F.trans hR (F.trans hR' hR'')⟩

end Scan

namespace CompilationUnit

variable {m : Machine} {cfg : Config} {S R : Host → Host → Prop}

/-- A scan leaves the unit what it was for, scanned where it succeeds, and finds only units that it
has made itself while it was reading. Before anything else it writes down that it has begun. -/
structure Scanned (m : Machine) (cfg : Config) (S R : Host → Host → Prop) (u : CompilationUnit)
    (h : Host) (r : Except ScanError (List CompilationUnit) × CompilationUnit) (h' : Host) :
    Prop where
  follows : u.Follows r.2
  copy : ∃ s : Site, r.2.copy = s.path m cfg.cacheRoot u.copy
  scanned : r.1.isOk = true → r.2.scanned = true
  made : ∀ found, r.1 = .ok found → ∀ f ∈ found, f.MadeAfter m S (h.noted (.scanning u.path))
  host : R (h.noted (.scanning u.path)) h'

/-- Reporting what was wrong is a step of a scan. -/
theorem report_frame (F : Scan.Frame m cfg R) (ds : List Source.Diagnostic) (h : Host) :
    Leads (Host.report ds) h fun _ h' => R h h' := by
  have hrun : ∀ (ds : List Source.Diagnostic) (h : Host),
      (Host.report ds).run h = ((), { h with events := h.events ++ ds.map .diagnostic }) :=
    fun _ _ => rfl
  induction ds generalizing h with
  | nil =>
    rw [leads_of_run (hrun [] h), List.map_nil, List.append_nil]
    exact F.refl h
  | cons d rest ih =>
    have hrest := ih { h with events := h.events ++ [.diagnostic d] }
    rw [leads_of_run (hrun _ _)] at hrest ⊢
    rw [List.append_assoc] at hrest
    exact F.trans (F.emit (.diagnostic d) h rfl) hrest

/-- What a scan leads to, where `S` is kept by the reading and `R` by the whole. -/
theorem scan_outcome (G : Scan.Frame m cfg S) (F : ScanFrame m cfg R) (u : CompilationUnit)
    (h : Host) : Leads (u.scan m cfg) h fun r h' => u.Scanned m cfg S R h r h' := by
  have herror : ∀ e : ScanError,
      (Except.error e : Except ScanError (List CompilationUnit)).isOk = true → False :=
    fun _ h => by cases h
  unfold scan
  rw [leads_bind, leads_note]
  rw [leads_bind, leads_get]
  split
  · exact ⟨.refl u, ⟨.beside, rfl⟩, fun ho => (herror _ ho).elim, by simp, F.refl _⟩
  · next content _ =>
    have hread : Leads (Scan.readLines m cfg 0 (Source.rawLines content) { unit := u })
        (h.noted (.scanning u.path))
        fun r h' => Scan.Extends m S { unit := u } (h.noted (.scanning u.path)) r.2 h' ∧
          R (h.noted (.scanning u.path)) h' :=
      ⟨Scan.readLines_extends G 0 _ _ _, (Scan.readLines_extends F.toFrame 0 _ _ _).host⟩
    refine Leads.bind hread fun r h₂ hext => ?_
    obtain ⟨signal, s⟩ := r
    obtain ⟨hext, hR₂⟩ := hext
    obtain ⟨more, hmore, hmade⟩ := hext.found
    have hfollows : u.Follows s.unit := hext.unit.follows
    have hcopy : s.unit.copy = u.copy := hext.unit.copy
    cases signal with
    | some signal =>
      refine Leads.bind (report_frame F.toFrame _ h₂) fun _ h₃ hR₃ => ?_
      exact ⟨hfollows, ⟨.beside, hcopy⟩, fun ho => (herror _ ho).elim, by simp,
        F.trans hR₂ hR₃⟩
    | none =>
      refine Leads.bind (report_frame F.toFrame _ h₂) fun _ h₃ hR₃ => ?_
      have hfollows' : u.Follows { s.unit with scanned := true } :=
        hfollows.trans ⟨rfl, rfl, rfl, rfl, rfl⟩
      have hR : R (h.noted (.scanning u.path)) h₃ := F.trans hR₂ hR₃
      dsimp only
      split
      · exact ⟨hfollows', ⟨.beside, hcopy⟩, fun ho => (herror _ ho).elim, by simp, hR⟩
      · refine Leads.bind (Scan.writeCopy_outcome F content _ h₃) fun r h₄ hwritten => ?_
        obtain ⟨r, u'⟩ := r
        obtain ⟨hcopies, hR₄⟩ := hwritten
        have hfollows'' : u.Follows u' := hfollows'.trans hcopies.follows
        have hsite : ∃ s : Site, u'.copy = s.path m cfg.cacheRoot u.copy := hcopy ▸ hcopies.copy
        cases r with
        | error e =>
          exact ⟨hfollows'', hsite, fun ho => (herror _ ho).elim, by simp, F.trans hR hR₄⟩
        | ok _ =>
          refine ⟨hfollows'', hsite, fun _ => hcopies.scanned, ?_, F.trans hR hR₄⟩
          intro found hfound f hf
          cases hfound
          rw [show s.found = more by simpa using hmore] at hf
          exact hmade f hf

end CompilationUnit

end CxxScript

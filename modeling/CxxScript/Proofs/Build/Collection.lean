import CxxScript.Build.Steps
import CxxScript.Proofs.Build.Effects
import CxxScript.Proofs.Build.Pushing

/-!
# The collection as a run of steps

The loop that collects a script's files is taken apart into steps: a unit that is scanned already is
passed by, any other is visited. `Steps` is a run of steps together with the visits that were made
on the way, and `Ends` says where a run comes to an end by itself. Neither knows a bound on the
number of steps. `collect_run` ties the loop to them: it either follows a run to its end or stops in
the middle of one because its bound is used up.
-/

set_option autoImplicit false

namespace CxxScript.Discovery

open Host

/-- One scan that is made while files are collected: the unit as it stood in the list, what came of
it, and the hosts around it. -/
structure Visit where
  unit : CompilationUnit
  start : Host
  outcome : Except ScanError (List CompilationUnit)
  result : CompilationUnit
  final : Host

namespace Visit

/-- The visit is what scanning its unit does. -/
def Runs (m : Machine) (cfg : Config) (v : Visit) : Prop :=
  (v.unit.scan m cfg).run v.start = ((v.outcome, v.result), v.final)

/-- The units that a visit gave back. -/
def found (v : Visit) : List CompilationUnit :=
  match v.outcome with
  | .ok found => found
  | .error _ => []

end Visit

/-- Where a collection stands: the units behind it and before it, the toolset and the host. -/
structure State where
  done : List CompilationUnit
  todo : List CompilationUnit
  toolset : Toolset
  host : Host

/-- All units that are known. -/
def State.units (s : State) : List CompilationUnit := s.done ++ s.todo

/-- One step of a collection, with the visit it makes, if it makes one. -/
inductive Step (m : Machine) (cfg : Config) : State → List Visit → State → Prop where
  | pass {done todo : List CompilationUnit} {u : CompilationUnit} {ts : Toolset} {h : Host} :
      u.scanned = true → Step m cfg ⟨done, u :: todo, ts, h⟩ [] ⟨done ++ [u], todo, ts, h⟩
  | visit {done todo joined : List CompilationUnit} {ts ts' : Toolset} {h : Host} {v : Visit} :
      v.unit.scanned = false → v.Runs m cfg → v.outcome.isOk = true →
      (takeIn (done ++ v.result :: todo) v.result v.found ts).run v.final = ((ts', joined), h) →
      Step m cfg ⟨done, v.unit :: todo, ts, v.start⟩ [v]
        ⟨done ++ [v.result], todo ++ joined, ts', h⟩

/-- A number of steps, with the visits made on the way, in order. -/
inductive Steps (m : Machine) (cfg : Config) : Nat → State → List Visit → State → Prop where
  | refl (s : State) : Steps m cfg 0 s [] s
  | head {n : Nat} {a b c : State} {vs vs' : List Visit} :
      Step m cfg a vs b → Steps m cfg n b vs' c → Steps m cfg (n + 1) a (vs ++ vs') c

/-- How a collection ends by itself: all units are behind it, or a scan fails. -/
inductive Ends (m : Machine) (cfg : Config) (s : State) :
    List Visit → Except Failure Unit × List CompilationUnit × Toolset → Host → Prop where
  | finished {n : Nat} {vs : List Visit} {done : List CompilationUnit} {ts : Toolset} {h : Host} :
      Steps m cfg n s vs ⟨done, [], ts, h⟩ → Ends m cfg s vs (.ok (), done, ts) h
  | failed {n : Nat} {vs : List Visit} {done todo : List CompilationUnit} {ts : Toolset}
      {v : Visit} {e : ScanError} :
      Steps m cfg n s vs ⟨done, v.unit :: todo, ts, v.start⟩ → v.unit.scanned = false →
      v.Runs m cfg → v.outcome = .error e →
      Ends m cfg s (vs ++ [v]) (.error (.directive e), done ++ v.result :: todo, ts) v.final

/-- A collection that goes on from where a step leads ends where that leads to. -/
theorem Ends.head {m : Machine} {cfg : Config} {a b : State} {vs vs' : List Visit}
    {r : Except Failure Unit × List CompilationUnit × Toolset} {h : Host}
    (hs : Step m cfg a vs b) (he : Ends m cfg b vs' r h) : Ends m cfg a (vs ++ vs') r h := by
  cases he with
  | finished hsteps => exact .finished (.head hs hsteps)
  | failed hsteps hu hv ho =>
    rw [← List.append_assoc]
    exact .failed (.head hs hsteps) hu hv ho

/-- What the loop does with a unit that has to be scanned. -/
theorem collect_visit (m : Machine) (cfg : Config) (fuel : Nat) (done rest : List CompilationUnit)
    (ts : Toolset) {u result : CompilationUnit} {h final : Host}
    {outcome : Except ScanError (List CompilationUnit)} (hscanned : u.scanned = false)
    (hscan : (u.scan m cfg).run h = ((outcome, result), final)) :
    (collect m cfg (fuel + 1) done (u :: rest) ts).run h =
      match outcome with
      | .error e => ((.error (.directive e), done ++ result :: rest, ts), final)
      | .ok found => (takeIn (done ++ result :: rest) result found ts >>= fun r =>
          collect m cfg fuel (done ++ [result]) (rest ++ r.2) r.1).run final := by
  simp only [collect, hscanned, Bool.false_eq_true, if_false]
  rw [run_bind_of_run hscan]
  cases outcome <;> rfl

/-- The loop follows a run to its end, or it stops in the middle of one, its bound being used
up. -/
theorem collect_run (m : Machine) (cfg : Config) (fuel : Nat) (done todo : List CompilationUnit)
    (ts : Toolset) (h : Host) :
    (∃ vs r h', (collect m cfg fuel done todo ts).run h = (r, h') ∧
      Ends m cfg ⟨done, todo, ts, h⟩ vs r h') ∨
    (∃ vs s, ((collect m cfg fuel done todo ts).run h).1.1 = .error .endless ∧
      Steps m cfg fuel ⟨done, todo, ts, h⟩ vs s ∧ s.todo ≠ []) := by
  induction fuel generalizing done todo ts h with
  | zero =>
    cases todo with
    | nil => exact .inl ⟨[], _, _, rfl, .finished (.refl _)⟩
    | cons u rest => exact .inr ⟨[], _, rfl, .refl _, by simp⟩
  | succ fuel ih =>
    cases todo with
    | nil => exact .inl ⟨[], _, _, rfl, .finished (.refl _)⟩
    | cons u rest =>
      by_cases hscanned : u.scanned = true
      · have hrun : (collect m cfg (fuel + 1) done (u :: rest) ts).run h =
            (collect m cfg fuel (done ++ [u]) rest ts).run h := by
          simp only [collect, hscanned, if_true]
        rw [hrun]
        have hstep : Step m cfg ⟨done, u :: rest, ts, h⟩ [] ⟨done ++ [u], rest, ts, h⟩ :=
          .pass hscanned
        rcases ih (done ++ [u]) rest ts h with ⟨vs, r, h', hr, he⟩ | ⟨vs, s, hr, hs, hne⟩
        · exact .inl ⟨[] ++ vs, r, h', hr, he.head hstep⟩
        · exact .inr ⟨[] ++ vs, s, hr, .head hstep hs, hne⟩
      · rw [Bool.not_eq_true] at hscanned
        obtain ⟨⟨outcome, result⟩, final, hscan⟩ := exists_run (u.scan m cfg) h
        let v : Visit := ⟨u, h, outcome, result, final⟩
        have hv : v.Runs m cfg := hscan
        rw [collect_visit m cfg fuel done rest ts hscanned hscan]
        cases outcome with
        | error e =>
          exact .inl ⟨[] ++ [v], _, _, rfl, .failed (v := v) (.refl _) hscanned hv rfl⟩
        | ok found =>
          obtain ⟨⟨ts', joined⟩, h₁, htake⟩ :=
            exists_run (takeIn (done ++ result :: rest) result found ts) final
          dsimp only
          rw [run_bind_of_run htake]
          have hstep : Step m cfg ⟨done, u :: rest, ts, h⟩ [v]
              ⟨done ++ [result], rest ++ joined, ts', h₁⟩ :=
            .visit (v := v) hscanned hv rfl htake
          rcases ih (done ++ [result]) (rest ++ joined) ts' h₁ with
            ⟨vs, r, h', hr, he⟩ | ⟨vs, s, hr, hs, hne⟩
          · exact .inl ⟨[v] ++ vs, r, h', hr, he.head hstep⟩
          · exact .inr ⟨[v] ++ vs, s, hr, .head hstep hs, hne⟩

/-! ## What a step does to the host and to the toolset -/

/-- Whether an event is one that taking a unit in writes down: a unit has joined, or a compiler that
is asked for is not taken. -/
def IsTaking (e : Event) : Prop := Toolset.IsRefusal e ∨ ∃ p, e = .note (.discovered p)

/-- To take a unit in begins no scan. -/
theorem IsTaking.scanned? {e : Event} (he : IsTaking e) : e.scanned? = none := by
  rcases he with ⟨compiler, rfl | rfl⟩ | ⟨p, rfl⟩ <;> rfl

/-- Telling which units have joined touches no file. -/
theorem announce_host (units : List CompilationUnit) (h : Host) :
    Leads (announce units) h fun _ h' => h'.files = h.files ∧ Wrote IsTaking h h' := by
  unfold announce
  induction units generalizing h with
  | nil => exact ⟨rfl, .of_eq rfl⟩
  | cons u rest ih =>
    show Leads (note (.discovered u.path) >>= fun _ => rest.forM fun u => note (.discovered u.path))
      h _
    rw [leads_bind, leads_note]
    refine (ih (h.noted (.discovered u.path))).mono fun _ _ h' => ⟨h'.1, ?_⟩
    exact Wrote.trans (.single rfl (.inr ⟨u.path, rfl⟩)) h'.2

/-- Taking a unit in pushes its flags and gives back the units that are new; it touches no file. -/
theorem takeIn_outcome (known : List CompilationUnit) (u : CompilationUnit)
    (found : List CompilationUnit) (ts : Toolset) (h : Host) :
    Leads (takeIn known u found ts) h fun r h' =>
      r.2 = fresh known found ∧ r.1 = ts.pushed u.flags .normal ∧
        h'.files = h.files ∧ Wrote IsTaking h h' := by
  unfold takeIn
  refine Leads.bind (ts.pushFlags_outcome u.flags .normal h) fun ts' h₁ hpush => ?_
  obtain ⟨hts, hfiles₁, hwrote₁⟩ := hpush
  refine Leads.bind (announce_host _ h₁) fun _ h₂ hannounce => ?_
  obtain ⟨hfiles₂, hwrote₂⟩ := hannounce
  exact ⟨rfl, hts, hfiles₂.trans hfiles₁, (hwrote₁.mono fun _ => .inl).trans hwrote₂⟩

/-- The toolset after a visit that went well. -/
def taking (ts : Toolset) (v : Visit) : Toolset := ts.pushed v.result.flags .normal

/-- A collection leaves the toolset with the flags of the visited units, pushed in order. -/
theorem Steps.toolset {m : Machine} {cfg : Config} {n : Nat} {s s' : State} {vs : List Visit}
    (h : Steps m cfg n s vs s') : s'.toolset = vs.foldl taking s.toolset := by
  induction h with
  | refl s => rfl
  | head hstep _ ih =>
    cases hstep with
    | pass _ => exact ih
    | @visit done todo joined ts ts' h v _ _ _ htake =>
      obtain ⟨-, htoolset, -⟩ :=
        (leads_of_run htake _).mp (takeIn_outcome _ v.result v.found ts v.final)
      have htaken : ts' = taking ts v := htoolset
      rw [ih, List.foldl_append, htaken]
      rfl

/-- What the flags of visited units leave to a toolset: all but the compiler that is asked for and
the shared flags. -/
theorem foldl_taking (vs : List Visit) (ts : Toolset) : vs.foldl taking ts =
    { ts with
      asked? := (vs.foldl taking ts).asked?
      flags := vs.foldl (fun flags v => (Flags.pushUnique flags
        (Toolset.realFlags v.result.flags)).1) ts.flags } := by
  induction vs generalizing ts with
  | nil => rfl
  | cons v rest ih =>
    have hfirst := ts.pushed_normal v.result.flags
    rw [List.foldl_cons, List.foldl_cons, ih, taking, hfirst]

/-- A collection leaves the toolset its configuration. -/
theorem Steps.config {m : Machine} {cfg : Config} {n : Nat} {s s' : State} {vs : List Visit}
    (h : Steps m cfg n s vs s') : s'.toolset.config = s.toolset.config := by
  rw [h.toolset, foldl_taking]

/-! ## What visits do -/

/-- Every step of a scan keeps the relation that always holds. -/
theorem trivialFrame (m : Machine) (cfg : Config) : ScanFrame m cfg fun _ _ => True where
  refl _ := trivial
  trans _ _ := trivial
  emit _ _ _ := trivial
  poll _ := trivial
  query _ _ := trivial
  openCopy _ _ := trivial
  append _ _ _ := trivial

variable {m : Machine} {cfg : Config}

/-- A visit does what a scan does. -/
theorem Visit.Runs.scanned {v : Visit} (hv : v.Runs m cfg) {S R : Host → Host → Prop}
    (G : Scan.Frame m cfg S) (F : ScanFrame m cfg R) :
    v.unit.Scanned m cfg S R v.start (v.outcome, v.result) v.final :=
  (leads_of_run hv _).mp (CompilationUnit.scan_outcome G F v.unit v.start)

/-- A visit leaves the unit what it was for. -/
theorem Visit.Runs.follows {v : Visit} (hv : v.Runs m cfg) : v.unit.Follows v.result :=
  (hv.scanned (trivialFrame m cfg).toFrame (trivialFrame m cfg)).follows

/-- A unit whose visit went well is scanned. -/
theorem Visit.Runs.result_scanned {v : Visit} (hv : v.Runs m cfg) (ho : v.outcome.isOk = true) :
    v.result.scanned = true :=
  (hv.scanned (trivialFrame m cfg).toFrame (trivialFrame m cfg)).scanned ho

/-- The units that a visit gives back are made while it reads. -/
theorem Visit.Runs.made {v : Visit} (hv : v.Runs m cfg) {S : Host → Host → Prop}
    (G : Scan.Frame m cfg S) :
    ∀ f ∈ v.found, f.MadeAfter m S (v.start.noted (.scanning v.unit.path)) := by
  intro f hf
  have hmade := (hv.scanned G (trivialFrame m cfg)).made
  unfold Visit.found at hf
  cases ho : v.outcome with
  | error e => rw [ho] at hf; cases hf
  | ok found => rw [ho] at hf; exact hmade found ho f hf

/-- The units that a visit gives back are not scanned. -/
theorem Visit.Runs.found_not_scanned {v : Visit} (hv : v.Runs m cfg) :
    ∀ f ∈ v.found, f.scanned = false := fun f hf =>
  (hv.made (trivialFrame m cfg).toFrame f hf).not_scanned

/-- A visit writes down that it has begun, and no other scan begins in it. -/
theorem Visit.Runs.scans {v : Visit} (hv : v.Runs m cfg) :
    v.final.scans = v.start.scans ++ [v.unit.path] := by
  have hhost := (hv.scanned (trivialFrame m cfg).toFrame (singleFrame m cfg)).host
  rw [scans_of_wrote hhost, Host.scans, Host.scans, Host.noted, List.filterMap_append]
  rfl

/-- Files that cannot be read end a scan at once. -/
theorem scan_of_unreadable {u : CompilationUnit} {h : Host} {cause : IoError}
    (hr : h.files.read m.cwd u.path = .error cause) :
    (u.scan m cfg).run h = ((.error (.read u.path cause), u), h.noted (.scanning u.path)) := by
  have hnote : (note (.scanning u.path)).run h = ((), h.noted (.scanning u.path)) := rfl
  have hget : (get : StateM Host Host).run (h.noted (.scanning u.path)) =
      (h.noted (.scanning u.path), h.noted (.scanning u.path)) := rfl
  have hnoted : (h.noted (.scanning u.path)).files.read m.cwd u.path = .error cause := hr
  rw [CompilationUnit.scan, run_bind_of_run hnote, run_bind_of_run hget, hnoted]
  rfl

/-- What has been visited and went well has been read. -/
theorem Visit.Runs.read {v : Visit} (hv : v.Runs m cfg) (ho : v.outcome.isOk = true) :
    ∃ content, v.start.files.read m.cwd v.unit.path = .ok content := by
  cases hr : v.start.files.read m.cwd v.unit.path with
  | ok content => exact ⟨content, rfl⟩
  | error cause =>
    have heq := (scan_of_unreadable hr).symm.trans hv
    have hout : v.outcome = .error (.read v.unit.path cause) :=
      (congrArg (fun r => r.1.1) heq).symm
    rw [hout] at ho
    cases ho

/-! ## Units that are new -/

/-- Being known goes by identities alone. -/
theorem isKnown_iff (known : List CompilationUnit) (u : CompilationUnit) :
    isKnown known u = true ↔ u.identity ∈ known.map (·.identity) := by
  simp only [isKnown, CompilationUnit.same, List.any_eq_true, beq_iff_eq, List.mem_map]

/-- Which units are new goes by the identities of the known ones alone. -/
theorem fresh_congr {known known' : List CompilationUnit}
    (h : known.map (·.identity) = known'.map (·.identity)) (l : List CompilationUnit) :
    fresh known l = fresh known' l := by
  induction l generalizing known known' with
  | nil => rfl
  | cons u rest ih =>
    have hk : isKnown known u = isKnown known' u := by
      rw [Bool.eq_iff_iff, isKnown_iff, isKnown_iff, h]
    have hnext : (known ++ [u]).map (·.identity) = (known' ++ [u]).map (·.identity) := by
      rw [List.map_append, List.map_append, h]
    simp only [fresh, hk, ih h, ih hnext]

/-- The new ones of two lists are those of the first and then those of the second. -/
theorem fresh_append (known l l' : List CompilationUnit) :
    fresh known (l ++ l') = fresh known l ++ fresh (known ++ fresh known l) l' := by
  induction l generalizing known with
  | nil => simp [fresh]
  | cons u rest ih =>
    rw [List.cons_append, fresh, fresh]
    split
    · exact ih known
    · rw [ih, List.cons_append, List.append_assoc]
      rfl

/-- A new unit is one of the list. -/
theorem mem_of_mem_fresh {known l : List CompilationUnit} {u : CompilationUnit}
    (h : u ∈ fresh known l) : u ∈ l := by
  induction l generalizing known with
  | nil => exact h
  | cons v rest ih =>
    rw [fresh] at h
    split at h
    · exact List.mem_cons_of_mem _ (ih h)
    · rcases List.mem_cons.mp h with rfl | h
      · exact List.mem_cons_self
      · exact List.mem_cons_of_mem _ (ih h)

/-- Every unit of the list is known once the new ones have joined. -/
theorem isKnown_append_fresh {known l : List CompilationUnit} {u : CompilationUnit}
    (h : u ∈ l) : isKnown (known ++ fresh known l) u = true := by
  induction l generalizing known with
  | nil => cases h
  | cons v rest ih =>
    rw [fresh]
    split
    · next hv =>
      rcases List.mem_cons.mp h with rfl | h
      · rw [isKnown_iff] at hv ⊢
        rw [List.map_append]
        exact List.mem_append_left _ hv
      · exact ih h
    · rcases List.mem_cons.mp h with rfl | h
      · rw [isKnown_iff, List.map_append]
        exact List.mem_append_right _ List.mem_cons_self
      · have := @ih (known ++ [v]) h
        rwa [List.append_assoc] at this

/-- A new unit is not known. -/
theorem isKnown_of_mem_fresh {known l : List CompilationUnit} {u : CompilationUnit}
    (h : u ∈ fresh known l) : isKnown known u = false := by
  induction l generalizing known with
  | nil => cases h
  | cons v rest ih =>
    rw [fresh] at h
    split at h
    · exact ih h
    · next hv =>
      rcases List.mem_cons.mp h with rfl | h
      · exact Bool.eq_false_iff.mpr hv
      · have hnext := ih h
        rw [isKnown, List.any_append, Bool.or_eq_false_iff] at hnext
        exact hnext.1

/-- New units have different identities. -/
theorem nodup_fresh (known l : List CompilationUnit) :
    ((fresh known l).map (·.identity)).Nodup := by
  induction l generalizing known with
  | nil => exact List.nodup_nil
  | cons u rest ih =>
    rw [fresh]
    split
    · exact ih known
    · rw [List.map_cons, List.nodup_cons]
      refine ⟨?_, ih (known ++ [u])⟩
      intro hu
      obtain ⟨v, hv, hid⟩ := List.mem_map.mp hu
      have hknown : isKnown (known ++ [u]) v = true := by
        rw [isKnown_iff, List.map_append]
        exact List.mem_append_right _ (by simp [hid])
      rw [isKnown_of_mem_fresh hv] at hknown
      cases hknown

/-- Known units of different identities stay so when the new ones join. -/
theorem nodup_append_fresh {known : List CompilationUnit}
    (h : (known.map (·.identity)).Nodup) (l : List CompilationUnit) :
    ((known ++ fresh known l).map (·.identity)).Nodup := by
  rw [List.map_append, List.nodup_append]
  refine ⟨h, nodup_fresh known l, ?_⟩
  rintro a ha b hb rfl
  obtain ⟨u, hu, rfl⟩ := List.mem_map.mp hb
  have hknown := (isKnown_iff known u).mpr ha
  rw [isKnown_of_mem_fresh hu] at hknown
  cases hknown

end CxxScript.Discovery

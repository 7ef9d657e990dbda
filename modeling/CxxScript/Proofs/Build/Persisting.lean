import CxxScript.Proofs.Build.Commanding
import CxxScript.Proofs.Build.Overriding

/-!
# Flags that have been pushed

Whatever is pushed later, the lists of a toolset only become wider, `Toolset.Widens`: the shared
flags at their two ends, the late ones at their end. So a run of flags stays together where it was
put, and to push it once more changes nothing, `Toolset.Kept`. Collecting the files of a script is
pushing the flags of the units that are visited, one after the other: `pushed_runs_stay`.
-/

set_option autoImplicit false

namespace CxxScript

open Host

variable {m : Machine} {cfg : Config}

namespace Toolset

variable {ts ts' : Toolset} {run : List String} {position : FlagPosition} {calls : List Call}

/-! ## Lists that become wider -/

/-- The list that flags are put in. -/
def flagsAt (ts : Toolset) : FlagPosition → List String
  | .early | .normal => ts.flags
  | .late => ts.lateFlags

/-- Flags have joined at the ends: at both of the shared ones, and behind the late ones. -/
structure Widens (ts ts' : Toolset) : Prop where
  flags : ts.flags <:+: ts'.flags
  late : ts.lateFlags <+: ts'.lateFlags

namespace Widens

/-- Lists that are left alone. -/
theorem of_eq (hflags : ts'.flags = ts.flags) (hlate : ts'.lateFlags = ts.lateFlags) :
    Widens ts ts' := ⟨hflags ▸ List.infix_rfl, hlate ▸ List.prefix_rfl⟩

/-- What joins later joins at the ends too. -/
theorem trans {ts'' : Toolset} (h : Widens ts ts') (h' : Widens ts' ts'') : Widens ts ts'' :=
  ⟨h.flags.trans h'.flags, h.late.trans h'.late⟩

/-- A run of flags stays where it is. -/
theorem stays (h : Widens ts ts') (hthere : run <:+: ts.flagsAt position) :
    run <:+: ts'.flagsAt position := by
  cases position with
  | early => exact hthere.trans h.flags
  | normal => exact hthere.trans h.flags
  | late => exact hthere.trans h.late.isInfix

end Widens

/-- One flag joins at an end. -/
theorem widens_insert (ts : Toolset) (flag : String) (position : FlagPosition) :
    Widens ts (ts.insert flag position) := by
  cases position with
  | early => exact ⟨(List.suffix_cons flag ts.flags).isInfix, List.prefix_rfl⟩
  | normal => exact ⟨(List.prefix_append ts.flags [flag]).isInfix, List.prefix_rfl⟩
  | late => exact ⟨List.infix_rfl, List.prefix_append ts.lateFlags [flag]⟩

/-- A run of flags joins at an end, unless it is there. -/
theorem widens_insertRun (ts : Toolset) (run : List String) (position : FlagPosition) :
    Widens ts (ts.insertRun run position) := by
  unfold insertRun
  cases position with
  | early =>
    dsimp only
    split
    · exact .of_eq rfl rfl
    · exact ⟨(List.suffix_append run ts.flags).isInfix, List.prefix_rfl⟩
  | normal => exact ⟨(Flags.prefix_pushUnique ts.flags run).isInfix, List.prefix_rfl⟩
  | late => exact ⟨List.infix_rfl, Flags.prefix_pushUnique ts.lateFlags run⟩

/-- Asking for compilers leaves the lists alone. -/
theorem widens_asking (ts : Toolset) (asked : List String) :
    Widens ts (asked.foldl asking ts) := by
  rw [foldl_asking]
  exact .of_eq rfl rfl

/-- Flags that are pushed join at an end. -/
theorem widens_pushed (ts : Toolset) (run : List String) (position : FlagPosition) :
    Widens ts (ts.pushed run position) :=
  (widens_asking ts _).trans (widens_insertRun _ _ position)

/-- A call lets flags join at an end, if at all. -/
theorem widens_after (c : Call) (ts : Toolset) : Widens ts (c.after ts) := by
  cases c with
  | pushFlag flag position =>
    rw [Call.after]
    cases askedBy? flag with
    | none => exact widens_insert ts flag position
    | some compiler => exact widens_asking ts [compiler]
  | pushFlags run position => exact widens_pushed ts run position
  | compiler answer => exact .of_eq rfl rfl

/-- Calls let flags join at the ends only. -/
theorem Calls.widens (hcalls : Calls m ts calls ts') : Widens ts ts' := by
  induction hcalls with
  | nil ts => exact .of_eq rfl rfl
  | @cons ts ts₁ ts₂ c calls hmade _ ih =>
    have hfirst : Widens ts ts₁ := hmade.eq_after ▸ widens_after c ts
    exact hfirst.trans ih

/-! ## Runs that stay together -/

/-- A run of flags is where it has been put. -/
theorem infix_insertRun (ts : Toolset) (run : List String) (position : FlagPosition) :
    run <:+: (ts.insertRun run position).flagsAt position := by
  unfold insertRun
  cases position with
  | early =>
    dsimp only
    split
    · next hthere => exact Flags.hasRun_iff.mp hthere
    · exact (List.prefix_append run ts.flags).isInfix
  | normal => exact Flags.infix_pushUnique ts.flags run
  | late => exact Flags.infix_pushUnique ts.lateFlags run

/-- A run of flags that is there is not put there again. -/
theorem insertRun_of_infix (hthere : run <:+: ts.flagsAt position) :
    ts.insertRun run position = ts := by
  have hrun : Flags.hasRun run (ts.flagsAt position) = true := Flags.hasRun_iff.mpr hthere
  have hpush : (Flags.pushUnique (ts.flagsAt position) run).1 = ts.flagsAt position := by
    rw [Flags.pushUnique, hrun, Bool.or_true, if_pos rfl]
  unfold insertRun
  cases position with
  | early => exact if_pos hrun
  | normal => rw [show (Flags.pushUnique ts.flags run).1 = ts.flags from hpush]
  | late => rw [show (Flags.pushUnique ts.lateFlags run).1 = ts.lateFlags from hpush]

/-- Pushing flags that are there leaves both lists as they are. -/
theorem pushed_of_infix (hthere : realFlags run <:+: ts.flagsAt position) :
    (ts.pushed run position).flags = ts.flags ∧
      (ts.pushed run position).lateFlags = ts.lateFlags := by
  have hasked := foldl_asking (run.filterMap askedBy?) ts
  have hthere' : realFlags run <:+: ((run.filterMap askedBy?).foldl asking ts).flagsAt position :=
    (widens_asking ts _).stays hthere
  rw [pushed, insertRun_of_infix hthere', hasked]
  exact ⟨rfl, rfl⟩

/-- What calls have come to: no flag asks for a compiler, each run that was pushed is together in
the list of its position, and to push it again leaves both lists as they are. -/
structure Kept (calls : List Call) (ts : Toolset) : Prop where
  clean : ts.Clean
  together : ∀ run position, .pushFlags run position ∈ calls →
    realFlags run <:+: ts.flagsAt position
  again : ∀ run position, .pushFlags run position ∈ calls → ∀ h,
    Leads (ts.pushFlags run position) h fun ts' _ =>
      ts'.flags = ts.flags ∧ ts'.lateFlags = ts.lateFlags

/-- A run that was pushed among some calls is together after them. -/
theorem Calls.together (hcalls : Calls m ts calls ts')
    (hmem : .pushFlags run position ∈ calls) : realFlags run <:+: ts'.flagsAt position := by
  induction hcalls with
  | nil ts => cases hmem
  | cons hmade hlater ih =>
    rcases List.mem_cons.mp hmem with rfl | hmem
    · refine hlater.widens.stays ?_
      rw [hmade.eq_after]
      exact infix_insertRun _ (realFlags run) position
    · exact ih hmem

/-- What calls come to that begin with a toolset none of whose flags asks for a compiler. -/
theorem Calls.kept (hcalls : Calls m ts calls ts') (hclean : ts.Clean) : Kept calls ts' := by
  refine ⟨hclean.calls hcalls, fun run position hmem => hcalls.together hmem,
    fun run position hmem h => ?_⟩
  refine (pushFlags_outcome ts' run position h).mono fun ts'' h' hpushed => ?_
  rw [hpushed.1]
  exact pushed_of_infix (hcalls.together hmem)

/-- Flags that are pushed behind the shared ones leave those in front, and the late ones alone. -/
theorem Calls.behind {runs : List (List String)} (hcalls : Calls m ts (pushes runs) ts') :
    ts.flags <+: ts'.flags ∧ ts'.lateFlags = ts.lateFlags := by
  induction runs generalizing ts with
  | nil =>
    cases hcalls
    exact ⟨List.prefix_rfl, rfl⟩
  | cons run rest ih =>
    cases hcalls with
    | @cons _ ts₁ _ _ _ hmade hrest =>
      obtain ⟨hfront, hlate⟩ := ih hrest
      have hfirst : ts₁ = ts.pushed run .normal := hmade.eq_after
      rw [hfirst, pushed_normal] at hfront hlate
      exact ⟨(Flags.prefix_pushUnique _ _).trans hfront, hlate⟩

end Toolset

namespace Discovery

open Toolset

/-! ## Flags of units that are visited -/

/-- A visit that has failed, which is how a collection ends with a result. -/
def Visit.FailedWith (m : Machine) (cfg : Config) (v : Visit) (r : Except Failure Unit) : Prop :=
  v.Runs m cfg ∧ ∃ e, v.outcome = .error e ∧ r = .error (.directive e)

/-- What has become of the flags of a unit when a collection that has gone on from some units has
pushed some runs and ended with a result. -/
inductive Handled (m : Machine) (cfg : Config) (done todo : List CompilationUnit)
    (runs : List (List String)) (r : Except Failure Unit) (u : CompilationUnit) : Prop where
  | pushed (hmem : u.flags ∈ runs)
  | flagless (hnil : u.flags = [])
  | behind (hdone : u ∈ done)
  | passed (htodo : u ∈ todo) (hok : r = .ok () → u.scanned = true)
  | failed {v : Visit} (hfailed : v.FailedWith m cfg r) (hresult : v.result = u)

variable {done todo joined : List CompilationUnit} {runs : List (List String)}
  {r : Except Failure Unit} {u first result : CompilationUnit}

/-- To pass by a unit that is scanned, and then to go on. -/
theorem Handled.pass (hscanned : first.scanned = true)
    (h : Handled m cfg (done ++ [first]) todo runs r u) :
    Handled m cfg done (first :: todo) runs r u := by
  cases h with
  | pushed hmem => exact .pushed hmem
  | flagless hnil => exact .flagless hnil
  | behind hdone =>
    rcases List.mem_append.mp hdone with hdone | hlast
    · exact .behind hdone
    · rw [List.mem_singleton] at hlast
      exact .passed (hlast ▸ List.mem_cons_self) fun _ => hlast ▸ hscanned
  | passed htodo hok => exact .passed (List.mem_cons_of_mem _ htodo) hok
  | failed hfailed hresult => exact .failed hfailed hresult

/-- To visit a unit, to push its flags and let units without flags join, and then to go on. -/
theorem Handled.visit (hjoined : ∀ f ∈ joined, f.flags = [])
    (h : Handled m cfg (done ++ [result]) (todo ++ joined) runs r u) :
    Handled m cfg done (first :: todo) (result.flags :: runs) r u := by
  cases h with
  | pushed hmem => exact .pushed (List.mem_cons_of_mem _ hmem)
  | flagless hnil => exact .flagless hnil
  | behind hdone =>
    rcases List.mem_append.mp hdone with hdone | hlast
    · exact .behind hdone
    · rw [List.mem_singleton] at hlast
      exact .pushed (hlast ▸ List.mem_cons_self)
  | passed htodo hok =>
    rcases List.mem_append.mp htodo with htodo | hnew
    · exact .passed (List.mem_cons_of_mem _ htodo) hok
    · exact .flagless (hjoined u hnew)
  | failed hfailed hresult => exact .failed hfailed hresult

/-- To take a unit in is a call that pushes its flags. -/
theorem takeIn_call (known : List CompilationUnit) (u : CompilationUnit)
    (found : List CompilationUnit) (ts : Toolset) (h : Host) :
    Leads (takeIn known u found ts) h fun r _ =>
      r.2 = fresh known found ∧ (Toolset.Call.pushFlags u.flags .normal).Made m ts r.1 := by
  unfold takeIn
  obtain ⟨ts', h₁, hpush⟩ := exists_run (ts.pushFlags u.flags .normal) h
  refine (leads_bind _ _ _ _).mpr ((leads_of_run hpush _).mpr (Leads.skip fun _ h₂ => ?_))
  exact ⟨rfl, h, h₁, hpush⟩

/-- Files are collected by pushing runs of flags, those of the units that are visited. -/
theorem collect_pushes (fuel : Nat) (done todo : List CompilationUnit) (ts : Toolset) (h : Host) :
    Leads (collect m cfg fuel done todo ts) h fun r _ => ∃ runs,
      Calls m ts (pushes runs) r.2.2 ∧ ∀ u ∈ r.2.1, Handled m cfg done todo runs r.1 u := by
  induction fuel generalizing done todo ts h with
  | zero =>
    cases todo with
    | nil => exact ⟨[], .nil ts, fun u hu => .behind hu⟩
    | cons first rest =>
      refine ⟨[], .nil ts, fun u hu => ?_⟩
      rcases List.mem_append.mp hu with hdone | htodo
      · exact .behind hdone
      · exact .passed htodo fun hok => by cases hok
  | succ fuel ih =>
    cases todo with
    | nil => exact ⟨[], .nil ts, fun u hu => .behind hu⟩
    | cons first rest =>
      unfold collect
      split
      · next hscanned =>
        refine (ih (done ++ [first]) rest ts h).mono fun r _ hr => ?_
        obtain ⟨runs, hcalls, hunits⟩ := hr
        exact ⟨runs, hcalls, fun u hu => (hunits u hu).pass hscanned⟩
      · obtain ⟨⟨outcome, result⟩, h₁, hscan⟩ := exists_run (first.scan m cfg) h
        let v : Visit := ⟨first, h, outcome, result, h₁⟩
        have hv : v.Runs m cfg := hscan
        refine (leads_bind _ _ _ _).mpr ((leads_of_run hscan _).mpr ?_)
        cases outcome with
        | error e =>
          refine ⟨[], .nil ts, fun u hu => ?_⟩
          rcases List.mem_append.mp hu with hdone | hu
          · exact .behind hdone
          · rcases List.mem_cons.mp hu with rfl | htodo
            · exact .failed (v := v) ⟨hv, e, rfl, rfl⟩ rfl
            · exact .passed (List.mem_cons_of_mem _ htodo) fun hok => by cases hok
        | ok found =>
          refine Leads.bind (takeIn_call (m := m) _ result found ts h₁) fun r h₂ htaken => ?_
          obtain ⟨hfresh, hmade⟩ := htaken
          -- What has joined has just been made, without flags.
          have hjoined : ∀ f ∈ r.2, f.flags = [] := by
            intro f hf
            rw [hfresh] at hf
            obtain ⟨h', kind, p, -, hofPath⟩ :=
              hv.made (trivialFrame m cfg).toFrame f (mem_of_mem_fresh hf)
            rw [hofPath]
            rfl
          refine (ih (done ++ [result]) (rest ++ r.2) r.1 h₂).mono fun r' _ hr' => ?_
          obtain ⟨runs, hcalls, hunits⟩ := hr'
          exact ⟨result.flags :: runs, .cons hmade hcalls,
            fun u hu => (hunits u hu).visit hjoined⟩

end Discovery

namespace Build

open Toolset Discovery

/-- Flags that are pushed stay, whatever is pushed later. None of the lists has one that asks for a
compiler, a run that has been pushed stays together in the list of its position, where pushing it
once more changes nothing, and the lists become wider at their ends only. So it is when the files of
a script are collected, however that ends: the shared flags that there were stay in front, and those
of a unit that is listed then are together among them, unless the unit was there before and has not
been visited, or its visit has failed. -/
theorem pushed_runs_stay {calls : List Toolset.Call} {ts : Toolset}
    (hcalls : Calls m (ofConfig cfg) calls ts) :
    Kept calls ts ∧ (∀ later ts', Calls m ts later ts' → Widens ts ts') ∧
      ∀ (b : Build) h, Leads (b.discover m ts) h fun r _ => ∃ runs,
        Calls m ts (pushes runs) r.2.2 ∧ Kept (calls ++ pushes runs) r.2.2 ∧
        ts.flags <+: r.2.2.flags ∧ r.2.2.lateFlags = ts.lateFlags ∧
        ∀ u ∈ r.2.1.units, realFlags u.flags <:+: r.2.2.flags ∨
          (u ∈ b.units ∧ ¬ realFlags u.flags <:+: ts.flags ∧ (r.1 = .ok () → u.scanned = true)) ∨
          ∃ v : Visit, v.FailedWith m b.config r.1 ∧ v.result = u := by
  refine ⟨hcalls.kept (clean_ofConfig cfg), fun later ts' hlater => hlater.widens,
    fun b h => ?_⟩
  unfold discover Discovery.run
  obtain ⟨⟨result, units, ts'⟩, h', hrun⟩ :=
    exists_run (collect m b.config (budget b.units) [] b.units ts) h
  refine (leads_bind _ _ _ _).mpr ((leads_of_run hrun _).mpr ?_)
  obtain ⟨runs, hpushes, hunits⟩ := (leads_of_run hrun _).mp (collect_pushes _ [] b.units ts h)
  have hpushes : Calls m ts (pushes runs) ts' := hpushes
  have hkept : Kept (calls ++ pushes runs) ts' :=
    (hcalls.append hpushes).kept (clean_ofConfig cfg)
  have hne : units ≠ [] := by
    obtain ⟨u, rest, hfirst, -⟩ :=
      (leads_of_run hrun _).mp (collect_first _ [] b.units ts h) b.primary b.others rfl
    have hfirst : units = u :: rest := hfirst
    rw [hfirst]
    exact List.cons_ne_nil u rest
  obtain ⟨hfront, hlate⟩ := hpushes.behind
  refine ⟨runs, hpushes, hkept, hfront, hlate, fun u hu => ?_⟩
  have hu : u ∈ units := units_withUnits b hne ▸ hu
  by_cases hflags : realFlags u.flags <:+: ts.flags
  · exact .inl (hflags.trans hfront.isInfix)
  · cases hunits u hu with
    | pushed hmem =>
      have hpushed : .pushFlags u.flags .normal ∈ pushes runs :=
        List.mem_map.mpr ⟨u.flags, hmem, rfl⟩
      exact .inl (hkept.together u.flags .normal (List.mem_append_right _ hpushed))
    | flagless hnil =>
      rw [hnil] at hflags
      exact absurd List.nil_infix hflags
    | behind hnone => cases hnone
    | passed htodo hok => exact .inr (.inl ⟨htodo, hflags, hok⟩)
    | failed hfailed hresult => exact .inr (.inr ⟨_, hfailed, hresult⟩)

/-- Flags that overlap are pushed in all positions, one of them by a run that is there already. -/
def overlapping : List Toolset.Call :=
  [.pushFlags ["-O1", "--hbcxx-cxx=cc", "-w"] .early, .pushFlag "-v" .normal,
    .pushFlags ["-w", "-v"] .normal, .pushFlags ["-s"] .late]

/-- After a collection of the files of `draft` that has failed, they are collected once more with
those flags. That goes well, and the flags stay; the library that the script asks for is still not
among them. -/
theorem pushed_runs_stay_draft :
    ∃ ts ts', Calls workshop (ofConfig benchConfig) overlapping ts ∧ Kept overlapping ts ∧
      ts.flags = ["-O1", "-w", "-v"] ∧
      ((draftRun.1.2.1.discover workshop ts).run draftRun.2).1 = (.ok (), draftRun.1.2.1, ts') ∧
      draftRun.1.2.1.primary.flags = ["-lm"] ∧ ts'.flags = ["-O1", "-w", "-v"] ∧
      ∃ runs, Kept (overlapping ++ pushes runs) ts' := by
  let ts : Toolset := overlapping.foldl (fun ts c => c.after ts) (ofConfig benchConfig)
  have hcalls : Calls workshop (ofConfig benchConfig) overlapping ts :=
    .cons ⟨draft, _, rfl⟩ (.cons ⟨draft, _, rfl⟩ (.cons ⟨draft, _, rfl⟩
      (.cons ⟨draft, _, rfl⟩ (.nil _))))
  have hflags : ts.flags = ["-O1", "-w", "-v"] := by decide +kernel
  have hagain : ((draftRun.1.2.1.discover workshop ts).run draftRun.2).1 =
      (.ok (), draftRun.1.2.1, ts) := by decide +kernel
  have hlibrary : draftRun.1.2.1.primary.flags = ["-lm"] := by decide +kernel
  obtain ⟨hkept, -, hdiscover⟩ := pushed_runs_stay hcalls
  obtain ⟨⟨⟨r, b, ts₀⟩, k⟩, hdraft⟩ : ∃ x, draftRun = x := ⟨_, rfl⟩
  rw [hdraft] at hagain hlibrary ⊢
  obtain ⟨⟨r', b', ts'⟩, k', hrun⟩ := exists_run (b.discover workshop ts) k
  obtain ⟨runs, -, hkept', -⟩ := (leads_of_run hrun _).mp (hdiscover b k)
  rw [hrun] at hagain
  cases hagain
  exact ⟨ts, ts, hcalls, hkept, hflags, congrArg Prod.fst hrun, hlibrary, hflags, runs, hkept'⟩

end Build

end CxxScript

import CxxScript.Proofs.Build.Commanding
import CxxScript.Proofs.Build.Copying
import CxxScript.Proofs.Build.Order

/-!
# How files are mentioned

A file may be mentioned in three ways: a `source` directive names it, an include names it, or it
stands beside a header that an include names. Which of these makes it a source is said by
`Scan.mentions`, the units that a file mentions, line after line. Duplicates are left out by their
identities alone, so a file has in the list of units the kind of its first mention, whatever it is
called later on: `discover_takes_first_mention`.
-/

set_option autoImplicit false

namespace CxxScript

open Host

/-! ## What a line mentions -/

namespace Source

/-- The path that a well-formed `source` directive names. -/
def Directive.target? : Directive → Option String
  | .keyValue "source" value =>
    match Text.Words.split value with
    | [target] => some target
    | _ => none
  | _ => none

/-- The path that the directive on a line names as a source. -/
def targetOn? (line : List Char) : Option String :=
  (Scan.directiveOn? 0 line).bind fun d => d.2.target?

/-- The directive on a line is the same wherever the line stands. -/
theorem target?_directiveOn? {index : Nat} {line : List Char} {target : String}
    (ht : targetOn? line = some target) :
    ∃ position d, Scan.directiveOn? index line = some (position, d) ∧ d.target? = some target := by
  rw [targetOn?, Scan.directiveOn?] at ht
  rw [Scan.directiveOn?]
  cases hplace : findMarker? line with
  | none =>
    rw [hplace] at ht
    cases ht
  | some place =>
    rw [hplace] at ht
    exact ⟨_, _, rfl, ht⟩

end Source

namespace Scan

open Source Discovery

variable {m : Machine} {cfg : Config}

/-- The unit that a directive in the file at `path` names as a source. -/
def sourced? (m : Machine) (path : Path) (h : Host) (d : Directive) : Option CompilationUnit :=
  d.target?.map fun target => .ofPath m h .source (path.resolveFrom target)

/-- The units that an include in the file at `path` leads to: the header it names, where that is a
file, and the source file beside that header. -/
def included (m : Machine) (path : Path) (h : Host) : Include → List CompilationUnit
  | .beside target =>
    let header := path.resolveFrom target
    (if h.isFile m header then [.ofPath m h .header header] else []) ++
      ((sourceBeside? m h header).map (.ofPath m h .source)).toList
  | .system _ => []

/-- The units that the include on a line, if there is one, leads to. -/
def includedOn (m : Machine) (path : Path) (line : List Char) (h : Host) : List CompilationUnit :=
  (Include.ofLine? line).elim [] (included m path h)

/-- The units that a line mentions, first by its directive and then by its include. -/
def mentionsOn (m : Machine) (cfg : Config) (index : Nat) (line : List Char) (s : Scan)
    (h : Host) : List CompilationUnit :=
  match directiveOn? index line with
  | some (position, d) =>
    (sourced? m s.unit.path h d).toList ++
      includedOn m s.unit.path line ((s.apply m cfg position d).run h).2
  | none => includedOn m s.unit.path line h

/-- The units that lines mention, each made at the moment at which its line is read. -/
def mentions (m : Machine) (cfg : Config) : Nat → List Bytes → Scan → Host → List CompilationUnit
  | _, [], _, _ => []
  | index, line :: rest, s, h =>
    let h₁ := ((Host.poll m).run h).2
    let r := (s.readLine m cfg index (readableLine line)).run h₁
    mentionsOn m cfg index (readableLine line) s h₁ ++ mentions m cfg (index + 1) rest r.1 r.2

/-- From `s` to `s'` units have been referred to, each of them unless it was before. -/
def Refers (units : List CompilationUnit) (s s' : Scan) : Prop :=
  s'.found = s.found ++ fresh s.found units

/-- Where nothing is referred to the units found stay the same. -/
theorem Refers.of_eq {s s' : Scan} (h : s'.found = s.found) : Refers [] s s' := by
  rw [Refers, h]
  exact (List.append_nil _).symm

/-- Some units are referred to, and then others. -/
theorem Refers.trans {us us' : List CompilationUnit} {a b c : Scan} (h : Refers us a b)
    (h' : Refers us' b c) : Refers (us ++ us') a c := by
  rw [Refers] at h h' ⊢
  rw [h', h, fresh_append, List.append_assoc]

/-- A unit is referred to. -/
theorem refers_refer (s : Scan) (u : CompilationUnit) : Refers [u] s (s.refer u) := by
  by_cases hknown : isKnown s.found u = true
  · have hsame : s.refer u = s := if_pos hknown
    rw [Refers, hsame, fresh, if_pos hknown]
    exact (List.append_nil _).symm
  · have hjoined : s.refer u = { s with found := s.found ++ [u] } := if_neg hknown
    rw [Refers, hjoined, fresh, if_neg hknown]
    rfl

/-- Following a directive refers to the unit it names as a source, and to no other. -/
theorem apply_refers (position : Position) (d : Directive) (s : Scan) (h : Host) :
    Leads (s.apply m cfg position d) h fun s' _ =>
      Refers (sourced? m s.unit.path h d).toList s s' := by
  unfold apply
  split
  · exact .of_eq rfl
  · exact .of_eq rfl
  · exact .of_eq rfl
  · exact .of_eq rfl
  · refine Leads.skip fun r _ => ?_
    cases r <;> exact .of_eq rfl
  · next value =>
    rw [sourced?, Directive.target?]
    -- A value of one word is a path, and no other is.
    rcases Text.Words.split value with _ | ⟨target, _ | ⟨other, rest⟩⟩
    · exact .of_eq rfl
    · dsimp only
      rw [leads_bind, leads_note, leads_bind, leads_get]
      exact refers_refer s _
    · exact .of_eq rfl
  · next name value _ _ _ hsource =>
    have hnone : (Directive.keyValue name value).target? = none := by
      unfold Directive.target?
      split
      · next heq =>
        cases heq
        exact absurd rfl hsource
      · rfl
    rw [sourced?, hnone]
    exact .of_eq rfl
  · exact .of_eq rfl

/-- Following an include refers to the units it leads to. -/
theorem follow_refers (index : Nat) (i : Include) (s : Scan) (h : Host) :
    Leads (s.follow m cfg index i) h fun s' _ => Refers (included m s.unit.path h i) s s' := by
  cases i with
  | beside target =>
    unfold follow
    rw [leads_bind, leads_get]
    dsimp only [included]
    have hheader : Refers
        (if h.isFile m (s.unit.path.resolveFrom target) then
          [.ofPath m h .header (s.unit.path.resolveFrom target)] else []) s
        (if h.isFile m (s.unit.path.resolveFrom target) then
          s.refer (.ofPath m h .header (s.unit.path.resolveFrom target)) else s) := by
      split
      · exact refers_refer s _
      · exact .of_eq rfl
    split
    · next source hsource =>
      rw [hsource]
      exact hheader.trans (refers_refer _ _)
    · next hsource =>
      rw [hsource]
      exact hheader.trans (.of_eq rfl)
  | system header =>
    unfold follow
    dsimp only [included]
    split
    · exact .of_eq rfl
    · refine Leads.skip fun r _ => ?_
      cases r with
      | ok flags => exact .of_eq rfl
      | error e => exact Leads.skip fun _ _ => .of_eq rfl
    · exact .of_eq rfl

/-- Following the include on a line, if there is one, refers to the units it leads to. -/
theorem followAny_refers (index : Nat) (line : List Char) (s : Scan) (h : Host) :
    Leads (s.followAny m cfg index (Include.ofLine? line)) h fun s' _ =>
      Refers (includedOn m s.unit.path line h) s s' := by
  unfold includedOn followAny
  cases Include.ofLine? line with
  | none => exact .of_eq rfl
  | some i => exact follow_refers index i s h

/-- Reading a line refers to the units it mentions. -/
theorem readLine_refers (index : Nat) (line : List Char) (s : Scan) (h : Host) :
    Leads (s.readLine m cfg index line) h fun s' _ =>
      Refers (mentionsOn m cfg index line s h) s s' := by
  rw [readLine_eq, leads_bind]
  unfold direct mentionsOn
  cases directiveOn? index line with
  | none => exact followAny_refers index line s h
  | some found =>
    obtain ⟨position, d⟩ := found
    obtain ⟨s₁, h₁, happly⟩ := exists_run (s.apply m cfg position d) h
    have hdirective : Refers (sourced? m s.unit.path h d).toList s s₁ :=
      (leads_of_run happly _).mp (apply_refers position d s h)
    have hpath : s₁.unit.path = s.unit.path :=
      ((leads_of_run happly _).mp
        (apply_extends (trivialFrame m cfg).toFrame position d s h)).unit.follows.path
    dsimp only
    rw [leads_of_run happly, happly, ← hpath]
    refine (followAny_refers index line s₁ h₁).mono fun _ _ hincluded => ?_
    exact Refers.trans (hpath ▸ hdirective) hincluded

/-- Where no interrupt is seen, a line's units are mentioned and then those of the lines behind
it. -/
theorem mentions_cons {index : Nat} {line : Bytes} {rest : List Bytes} {s s' : Scan}
    {h h₁ h₂ : Host} (hpoll : (Host.poll m).run h = (none, h₁))
    (hline : (s.readLine m cfg index (readableLine line)).run h₁ = (s', h₂)) :
    mentions m cfg index (line :: rest) s h =
      mentionsOn m cfg index (readableLine line) s h₁ ++
        mentions m cfg (index + 1) rest s' h₂ := by
  rw [mentions, hpoll]
  dsimp only
  rw [hline]

/-- What is read to the end refers to the units that its lines mention. -/
theorem readLines_refers {index : Nat} {lines : List Bytes} {s s' : Scan} {h h' : Host}
    (hr : (readLines m cfg index lines s).run h = ((none, s'), h')) :
    Refers (mentions m cfg index lines s h) s s' := by
  induction lines generalizing index s h with
  | nil =>
    cases hr
    exact .of_eq rfl
  | cons line rest ih =>
    obtain ⟨signal?, h₁, hpoll⟩ := exists_run (Host.poll m) h
    cases signal? with
    | some signal =>
      rw [run_readLines_interrupted hpoll] at hr
      cases hr
    | none =>
      obtain ⟨s₁, h₂, hline⟩ := exists_run (s.readLine m cfg index (readableLine line)) h₁
      rw [run_readLines_cons hpoll hline] at hr
      have hfirst := (leads_of_run hline _).mp (readLine_refers index (readableLine line) s h₁)
      rw [mentions_cons hpoll hline]
      exact hfirst.trans (ih hr)

variable {S : Host → Host → Prop}

/-- Lines that are read to the end are read one by one, each at a moment of its own, and what is
mentioned is what they mention at these moments. -/
theorem mentions_moments (F : Frame m cfg S) {index : Nat} {lines : List Bytes} {s s' : Scan}
    {h h' : Host} (hr : (readLines m cfg index lines s).run h = ((none, s'), h')) :
    (∀ line ∈ lines, ∃ i s₁ k, s₁.unit.path = s.unit.path ∧ S h k ∧
      mentionsOn m cfg i (readableLine line) s₁ k ⊆ mentions m cfg index lines s h) ∧
    ∀ f ∈ mentions m cfg index lines s h, ∃ line ∈ lines, ∃ i s₁ k,
      s₁.unit.path = s.unit.path ∧ S h k ∧ f ∈ mentionsOn m cfg i (readableLine line) s₁ k := by
  induction lines generalizing index s h with
  | nil => exact ⟨by simp, by simp [mentions]⟩
  | cons line rest ih =>
    obtain ⟨signal?, h₁, hpoll⟩ := exists_run (Host.poll m) h
    cases signal? with
    | some signal =>
      rw [run_readLines_interrupted hpoll] at hr
      cases hr
    | none =>
      obtain ⟨s₁, h₂, hline⟩ := exists_run (s.readLine m cfg index (readableLine line)) h₁
      rw [run_readLines_cons hpoll hline] at hr
      obtain ⟨hlines, hfrom⟩ := ih hr
      rw [mentions_cons hpoll hline]
      have hstart : S h h₁ := (leads_of_run hpoll _).mp (F.poll h)
      have hread := (leads_of_run hline _).mp (readLine_extends F index (readableLine line) s h₁)
      have hpath : s₁.unit.path = s.unit.path := hread.unit.follows.path
      have hnext : S h h₂ := F.trans hstart hread.host
      constructor
      · intro l hl
        rcases List.mem_cons.mp hl with rfl | hl
        · exact ⟨index, s, h₁, rfl, hstart, List.subset_append_left _ _⟩
        · obtain ⟨i, s₂, k, hs₂, hk, hsub⟩ := hlines l hl
          exact ⟨i, s₂, k, hs₂.trans hpath, F.trans hnext hk,
            List.subset_append_of_subset_right _ hsub⟩
      · intro f hf
        rcases List.mem_append.mp hf with hf | hf
        · exact ⟨line, List.mem_cons_self, index, s, h₁, rfl, hstart, hf⟩
        · obtain ⟨l, hl, i, s₂, k, hs₂, hk, hmem⟩ := hfrom f hf
          exact ⟨l, List.mem_cons_of_mem _ hl, i, s₂, k, hs₂.trans hpath, F.trans hnext hk, hmem⟩

/-- A path that a line names as a source is mentioned as one. -/
theorem mem_mentionsOn_of_target {index : Nat} {line : List Char} {target : String} {s : Scan}
    {h : Host} (ht : targetOn? line = some target) :
    CompilationUnit.ofPath m h .source (s.unit.path.resolveFrom target) ∈
      mentionsOn m cfg index line s h := by
  obtain ⟨position, d, hd, htarget⟩ : ∃ position d,
      directiveOn? index line = some (position, d) ∧ d.target? = some target :=
    target?_directiveOn? ht
  rw [mentionsOn, hd]
  dsimp only
  rw [sourced?, htarget]
  exact List.mem_append_left _ List.mem_cons_self

/-- What is mentioned as a header is a file that an include names. -/
theorem header_of_mem_mentionsOn (F : Frame m cfg S) {index : Nat} {line : List Char} {s : Scan}
    {h : Host} {f : CompilationUnit} (hf : f ∈ mentionsOn m cfg index line s h)
    (hheader : f.kind = .header) : ∃ target k, Include.ofLine? line = some (.beside target) ∧
      S h k ∧ k.isFile m (s.unit.path.resolveFrom target) = true ∧
      f = .ofPath m k .header (s.unit.path.resolveFrom target) := by
  have hincluded : ∃ k, S h k ∧ f ∈ includedOn m s.unit.path line k := by
    rw [mentionsOn] at hf
    split at hf
    · next position d _ =>
      rcases List.mem_append.mp hf with hf | hf
      · rw [sourced?] at hf
        cases ht : d.target? with
        | none =>
          rw [ht] at hf
          cases hf
        | some target =>
          rw [ht] at hf
          rw [List.mem_singleton.mp hf] at hheader
          cases hheader
      · exact ⟨_, (apply_extends F position d s h).host, hf⟩
    · exact ⟨h, F.refl h, hf⟩
  obtain ⟨k, hk, hf⟩ := hincluded
  rw [includedOn] at hf
  cases hi : Include.ofLine? line with
  | none =>
    rw [hi] at hf
    cases hf
  | some i =>
    rw [hi] at hf
    cases i with
    | system target => cases hf
    | beside target =>
      refine ⟨target, k, rfl, hk, ?_⟩
      rcases List.mem_append.mp hf with hf | hf
      · split at hf
        · next hfile => exact ⟨hfile, List.mem_singleton.mp hf⟩
        · cases hf
      · obtain ⟨source, -, rfl⟩ := Option.map_eq_some_iff.mp (Option.mem_toList.mp hf)
        cases hheader

end Scan

/-! ## What is left of mentions -/

namespace Discovery

open Source

variable {m : Machine} {cfg : Config}

/-- To leave duplicates out first makes no difference to which units are new. -/
theorem fresh_fresh {seen known : List CompilationUnit} (l : List CompilationUnit)
    (hsub : seen.map (·.identity) ⊆ known.map (·.identity)) :
    fresh known (fresh seen l) = fresh known l := by
  induction l generalizing seen known with
  | nil => rfl
  | cons u rest ih =>
    by_cases hseen : isKnown seen u = true
    · have hknown : isKnown known u = true :=
        (isKnown_iff known u).mpr (hsub ((isKnown_iff seen u).mp hseen))
      rw [fresh, if_pos hseen, ih hsub, fresh, if_pos hknown]
    · rw [fresh, if_neg hseen, fresh, fresh]
      by_cases hknown : isKnown known u = true
      · rw [if_pos hknown, if_pos hknown]
        refine ih ?_
        rw [List.map_append]
        refine List.append_subset.mpr ⟨hsub, List.cons_subset.mpr ⟨?_, List.nil_subset _⟩⟩
        exact (isKnown_iff known u).mp hknown
      · rw [if_neg hknown, if_neg hknown, ih]
        rw [List.map_append, List.map_append]
        exact List.append_subset.mpr ⟨List.subset_append_of_subset_left _ hsub,
          List.subset_append_right _ _⟩

/-- Nor does it for several lists, one after the other. -/
theorem fresh_flatMap_fresh {α : Type} (known : List CompilationUnit)
    (f : α → List CompilationUnit) (l : List α) :
    fresh known (l.flatMap fun a => fresh [] (f a)) = fresh known (l.flatMap f) := by
  induction l generalizing known with
  | nil => rfl
  | cons a rest ih =>
    rw [List.flatMap_cons, List.flatMap_cons, fresh_append, fresh_append,
      fresh_fresh _ (List.nil_subset _), ih]

/-- Among the new units a file that is not known has the one under which it came first. -/
theorem find?_fresh {known : List CompilationUnit} {f : CompilationUnit}
    (hf : isKnown known f = false) (l : List CompilationUnit) :
    (fresh known l).find? (·.same f) = l.find? (·.same f) := by
  induction l generalizing known with
  | nil => rfl
  | cons u rest ih =>
    by_cases hknown : isKnown known u = true
    · have hother : ¬ u.same f = true := by
        intro hsame
        have hid : u.identity = f.identity := by simpa [CompilationUnit.same] using hsame
        rw [isKnown_iff, hid, ← isKnown_iff, hf] at hknown
        cases hknown
      rw [fresh, if_pos hknown, ih hf, List.find?_cons, Bool.eq_false_iff.mpr hother]
    · rw [fresh, if_neg hknown, List.find?_cons, List.find?_cons]
      by_cases hsame : u.same f = true
      · rw [hsame]
      · have hnext : isKnown (known ++ [u]) f = false := by
          rw [Bool.not_eq_true] at hsame
          rw [isKnown, List.any_append, ← isKnown, hf]
          simpa using hsame
        rw [Bool.eq_false_iff.mpr hsame, ih hnext]

/-! ## What a visit mentions -/

/-- The units that the file of a visited unit mentions. -/
def Visit.mentions (m : Machine) (cfg : Config) (v : Visit) : List CompilationUnit :=
  match v.start.files.read m.cwd v.unit.path with
  | .ok content => Scan.mentions m cfg 0 (rawLines content) { unit := v.unit }
      (v.start.noted (.scanning v.unit.path))
  | .error _ => []

/-- A line of the file that is visited names the path as a source. -/
def Visit.Sources (m : Machine) (v : Visit) (p : Path) : Prop :=
  ∃ content, v.start.files.read m.cwd v.unit.path = .ok content ∧ ∃ line ∈ rawLines content,
    ∃ target, targetOn? (readableLine line) = some target ∧ p = v.unit.path.resolveFrom target

/-- A line of the file that is visited includes the path as a header beside it. -/
def Visit.Includes (m : Machine) (v : Visit) (p : Path) : Prop :=
  ∃ content, v.start.files.read m.cwd v.unit.path = .ok content ∧ ∃ line ∈ rawLines content,
    ∃ target, Include.ofLine? (readableLine line) = some (.beside target) ∧
      p = v.unit.path.resolveFrom target

/-- A visit that goes well has read its file to the end. -/
theorem Visit.Runs.reads {v : Visit} (hv : v.Runs m cfg) (ho : v.outcome.isOk = true) :
    ∃ content s h', v.unit.Reads m cfg v.start content none s h' ∧ v.found = s.found := by
  obtain ⟨content, hread⟩ := hv.read ho
  cases hout : v.outcome with
  | error e =>
    rw [hout] at ho
    cases ho
  | ok found =>
    have hscan : (v.unit.scan m cfg).run v.start = ((.ok found, v.result), v.final) := by
      rw [← hout]
      exact hv
    obtain ⟨s, h', hr, -, hfound, -⟩ := CompilationUnit.reads_of_scan_ok hread hscan
    refine ⟨content, s, h', hr, ?_⟩
    rw [Visit.found, hout]
    exact hfound

/-- What a file that has been read mentions. -/
theorem Visit.mentions_of_read {v : Visit} {content : Bytes}
    (hread : v.start.files.read m.cwd v.unit.path = .ok content) :
    v.mentions m cfg = Scan.mentions m cfg 0 (rawLines content) { unit := v.unit }
      (v.start.noted (.scanning v.unit.path)) := by
  rw [Visit.mentions, hread]

/-- A visit that goes well gives back what its file mentions, each file once. -/
theorem Visit.Runs.found_eq {v : Visit} (hv : v.Runs m cfg) (ho : v.outcome.isOk = true) :
    v.found = fresh [] (v.mentions m cfg) := by
  obtain ⟨content, s, h', hr, hfound⟩ := hv.reads ho
  have hrefers := Scan.readLines_refers hr.lines
  rw [hfound, Visit.mentions_of_read hr.file, hrefers]
  rfl

/-- What the file of a visit that goes well names as a source is mentioned as one. -/
theorem Visit.Runs.sourced {v : Visit} (hv : v.Runs m cfg) (ho : v.outcome.isOk = true)
    {p : Path} (hp : v.Sources m p) : ∃ k, Package.Asked m cfg.pkgConfig v.start.files k.files ∧
      CompilationUnit.ofPath m k .source p ∈ v.mentions m cfg := by
  obtain ⟨content, s, h', hr, -⟩ := hv.reads ho
  obtain ⟨content', hread, line, hline, target, htarget, rfl⟩ := hp
  cases hr.file.symm.trans hread
  obtain ⟨i, s₁, k, hpath, hasked, hsub⟩ :=
    (Scan.mentions_moments (askedFrame m cfg) hr.lines).1 line hline
  refine ⟨k, hasked, ?_⟩
  have hmem := hsub (Scan.mem_mentionsOn_of_target htarget)
  rw [hpath] at hmem
  rw [Visit.mentions_of_read hread]
  exact hmem

/-- The unit is mentioned as a header by the file that is visited: an include names it, and it is a
file. -/
def Visit.Heads (m : Machine) (cfg : Config) (v : Visit) (f : CompilationUnit) : Prop :=
  f ∈ v.mentions m cfg ∧ ∃ p k, v.Includes m p ∧
    Package.Asked m cfg.pkgConfig v.start.files k.files ∧ k.isFile m p = true ∧
    f = .ofPath m k .header p

/-- What a visit that goes well mentions as a header is a file that an include names. -/
theorem Visit.Runs.heads {v : Visit} (hv : v.Runs m cfg) (ho : v.outcome.isOk = true)
    {f : CompilationUnit} (hf : f ∈ v.mentions m cfg) (hheader : f.kind = .header) :
    v.Heads m cfg f := by
  obtain ⟨content, s, h', hr, -⟩ := hv.reads ho
  have hmentioned := hf
  rw [Visit.mentions_of_read hr.file] at hmentioned
  obtain ⟨line, hline, i, s₁, k, hpath, hasked, hmem⟩ :=
    (Scan.mentions_moments (askedFrame m cfg) hr.lines).2 f hmentioned
  obtain ⟨target, k', hinclude, hasked', hfile, hmade⟩ :=
    Scan.header_of_mem_mentionsOn (askedFrame m cfg) hmem hheader
  rw [hpath] at hfile hmade
  exact ⟨hf, _, k', ⟨content, hr.file, line, hline, target, hinclude, rfl⟩, hasked.trans hasked',
    hfile, hmade⟩

/-! ## First mentions -/

variable {primary : CompilationUnit} {ts ts' : Toolset} {h h' : Host} {visits : List Visit}
  {units : List CompilationUnit}

/-- All mentions of a collection: that of the first unit, and then those of the visited files. -/
def allMentions (m : Machine) (cfg : Config) (primary : CompilationUnit) (visits : List Visit) :
    List CompilationUnit :=
  primary :: visits.flatMap (·.mentions m cfg)

/-- The visited units are the mentioned ones, each file once, in the order of first mention. -/
theorem Collected.mentioned (hc : Collected m cfg primary ts h visits units ts' h') :
    visits.map (·.unit) = fresh [] (allMentions m cfg primary visits) := by
  have hfound : visits.flatMap Visit.found =
      visits.flatMap fun v => fresh [] (v.mentions m cfg) :=
    List.flatMap_congr fun v hv => (hc.runs v hv).1.found_eq (hc.runs v hv).2
  rw [hc.ordered, ← cons_fresh_eq_eraseDupsBy, hfound, fresh_flatMap_fresh]
  rfl

/-- The unit `u` stands in the list for the file that `f` mentions: it is the only one that does,
and it has the path, the key and the kind under which that file was first mentioned. -/
structure Listed (mentions units : List CompilationUnit) (f first u : CompilationUnit) :
    Prop where
  mem : u ∈ units
  same : u.same f = true
  only : ∀ w ∈ units, w.same f = true → w = u
  mention : mentions.find? (·.same f) = some first
  follows : first.Follows u

/-- Whatever is mentioned is listed. -/
theorem Collected.listed (hc : Collected m cfg primary ts h visits units ts' h')
    {f : CompilationUnit} (hf : f ∈ allMentions m cfg primary visits) :
    ∃ first u, Listed (allMentions m cfg primary visits) units f first u := by
  have hself : f.same f = true := by rw [CompilationUnit.same, beq_self_eq_true]
  obtain ⟨first, hfirst⟩ : ∃ first,
      (allMentions m cfg primary visits).find? (·.same f) = some first :=
    Option.isSome_iff_exists.mp (List.find?_isSome.mpr ⟨f, hf, hself⟩)
  have hvisited : (visits.map (·.unit)).find? (·.same f) = some first := by
    rw [hc.mentioned, find?_fresh rfl, hfirst]
  obtain ⟨v, hv, rfl⟩ := List.mem_map.mp (List.mem_of_find?_eq_some hvisited)
  have hfollows := hc.follows v hv
  have hmem : v.result ∈ units := by
    rw [hc.once]
    exact List.mem_map_of_mem hv
  have hsame : v.result.same f = true := by
    have hfound := List.find?_some hfirst
    rw [CompilationUnit.same, hfollows.identity]
    exact hfound
  refine ⟨v.unit, v.result, hmem, hsame, fun w hw hwsame => ?_, hfirst, hfollows⟩
  have hids : w.identity = v.result.identity := by
    simp only [CompilationUnit.same, beq_iff_eq] at hwsame hsame
    rw [hwsame, hsame]
  exact List.inj_on_of_nodup_map hc.distinct hw hmem hids

/-- The path that the file of a visit names as a source is listed by its first mention: among the
sources, unless that first mention is an include which names the file itself. -/
def SourceListed (m : Machine) (cfg : Config) (primary : CompilationUnit) (visits : List Visit)
    (units : List CompilationUnit) (v : Visit) (p : Path) : Prop :=
  ∃ k first u, Package.Asked m cfg.pkgConfig v.start.files k.files ∧
    Listed (allMentions m cfg primary visits) units (.ofPath m k .source p) first u ∧
    (u ∈ CompilationUnit.sources units ∨
      u.kind = .header ∧ ∃ w ∈ visits, w.Heads m cfg first)

/-- Whatever a visited file names as a source is listed by its first mention. -/
theorem Collected.sourceListed (hc : Collected m cfg primary ts h visits units ts' h')
    (hprimary : primary.kind = .source) {v : Visit} (hv : v ∈ visits) {p : Path}
    (hp : v.Sources m p) : SourceListed m cfg primary visits units v p := by
  obtain ⟨k, hasked, hmem⟩ := (hc.runs v hv).1.sourced (hc.runs v hv).2 hp
  have hmentioned : CompilationUnit.ofPath m k .source p ∈ allMentions m cfg primary visits :=
    List.mem_cons_of_mem _ (List.mem_flatMap.mpr ⟨v, hv, hmem⟩)
  obtain ⟨first, u, hlisted⟩ := hc.listed hmentioned
  refine ⟨k, first, u, hasked, hlisted, ?_⟩
  cases hkind : u.kind with
  | source =>
    left
    have hsource : (!u.isHeader) = true := by
      rw [CompilationUnit.isHeader, hkind]
      rfl
    exact List.mem_filter.mpr ⟨hlisted.mem, hsource⟩
  | header =>
    right
    have hfirst : first.kind = .header := hlisted.follows.kind ▸ hkind
    refine ⟨rfl, ?_⟩
    rcases List.mem_cons.mp (List.mem_of_find?_eq_some hlisted.mention) with rfl | hmem
    · rw [hprimary] at hfirst
      cases hfirst
    · obtain ⟨w, hw, hmem⟩ := List.mem_flatMap.mp hmem
      exact ⟨w, hw, (hc.runs w hw).1.heads (hc.runs w hw).2 hmem hfirst⟩

end Discovery

namespace Build

open Discovery

/-- Where the files of a script are collected without a failure, each path that one of them names as
a source is that of exactly one unit, and the unit has the kind under which its file was first
mentioned, be it by the script, by a directive or by an include: it is a source unless that first
mention is an include which names the file itself. -/
theorem discover_takes_first_mention {m : Machine} {h₀ h h' : Host} {cfg : Config} {script : Path}
    {ts ts' : Toolset} {b : Build}
    (hd : ((Build.ofPath m h₀ cfg script).discover m ts).run h = ((.ok (), b, ts'), h')) :
    ∃ visits, Collected m cfg (.ofPath m h₀ .source script) ts h visits b.units ts' h' ∧
      ∀ v ∈ visits, ∀ p, v.Sources m p →
        SourceListed m cfg (.ofPath m h₀ .source script) visits b.units v p := by
  obtain ⟨n, visits, hsteps⟩ := steps_of_discover hd
  have hc := hsteps.collected rfl
  exact ⟨visits, hc, fun v hv p hp => hc.sourceListed rfl hv hp⟩

/-- The host on which a script of some lines stands beside another file. -/
def pair (lines : String) : Host where
  files :=
    { entries := [
        (["m.cpp"], .file (Text.Utf8.encode lines) false),
        (["b.cpp"], .file (Text.Utf8.encode "int b;\n") false)] }

/-- The script of a pair. -/
def pairScript (lines : String) : CompilationUnit :=
  .ofPath (idleMachine [] 7) (pair lines) .source ⟨"m.cpp"⟩

/-- What comes of collecting the files of a pair. -/
def pairRun (lines : String) : (Except Failure Unit × Build × Toolset) × Host :=
  ((Build.ofPath (idleMachine [] 7) (pair lines) (plainConfig "/cache") ⟨"m.cpp"⟩).discover
    (idleMachine [] 7) (.ofConfig (plainConfig "/cache"))).run (pair lines)

/-- Where the files of a pair are collected without a failure there is a build with its units. -/
theorem exists_pairRun {lines : String} (hok : (pairRun lines).1.1.isOk = true) :
    ∃ b ts' h', pairRun lines = ((.ok (), b, ts'), h') ∧
      b.units = (pairRun lines).1.2.1.units := by
  rcases hr : pairRun lines with ⟨⟨result, b, ts'⟩, h'⟩
  rw [hr] at hok
  cases result with
  | error e => cases hok
  | ok _ => exact ⟨b, ts', h', rfl, rfl⟩

/-- The lines that name a file as a source and then include it. -/
def sourceFirst : String := "//#! source: b.cpp\n#include \"b.cpp\"\n"

/-- The lines that include a file and then name it as a source. -/
def includeFirst : String := "#include \"b.cpp\"\n//#! source: b.cpp\n"

/-- A file that is named as a source and then included is a source. -/
theorem discover_takes_first_mention_pair :
    ∃ b ts' h', pairRun sourceFirst = ((.ok (), b, ts'), h') ∧
      b.units.map (fun u => (u.path.text, u.kind)) = [("m.cpp", .source), ("b.cpp", .source)] ∧
      ∃ visits, Collected (idleMachine [] 7) (plainConfig "/cache") (pairScript sourceFirst)
        (.ofConfig (plainConfig "/cache")) (pair sourceFirst) visits b.units ts' h' ∧
        ∀ v ∈ visits, ∀ p, v.Sources (idleMachine [] 7) p → SourceListed (idleMachine [] 7)
          (plainConfig "/cache") (pairScript sourceFirst) visits b.units v p := by
  have hok : (pairRun sourceFirst).1.1.isOk = true := by decide +kernel
  have hkinds : (pairRun sourceFirst).1.2.1.units.map (fun u => (u.path.text, u.kind)) =
      [("m.cpp", .source), ("b.cpp", .source)] := by decide +kernel
  obtain ⟨b, ts', h', hr, hunits⟩ := exists_pairRun hok
  exact ⟨b, ts', h', hr, by rw [hunits, hkinds], discover_takes_first_mention hr⟩

/-- A file that is included first is a header, though the next line names it as a source. -/
theorem sourced_after_include_is_header :
    (∃ line ∈ Source.rawLines (Text.Utf8.encode includeFirst),
      Source.targetOn? (Source.readableLine line) = some "b.cpp") ∧
    ∃ b ts' h', pairRun includeFirst = ((.ok (), b, ts'), h') ∧
      b.units.map (fun u => (u.path.text, u.kind, u.scanned)) =
        [("m.cpp", .source, true), ("b.cpp", .header, true)] := by
  have hline : ∃ line ∈ Source.rawLines (Text.Utf8.encode includeFirst),
      Source.targetOn? (Source.readableLine line) = some "b.cpp" := by decide +kernel
  have hok : (pairRun includeFirst).1.1.isOk = true := by decide +kernel
  have hkinds : (pairRun includeFirst).1.2.1.units.map
      (fun u => (u.path.text, u.kind, u.scanned)) =
      [("m.cpp", .source, true), ("b.cpp", .header, true)] := by decide +kernel
  obtain ⟨b, ts', h', hr, hunits⟩ := exists_pairRun hok
  exact ⟨hline, b, ts', h', hr, by rw [hunits, hkinds]⟩

end Build

end CxxScript

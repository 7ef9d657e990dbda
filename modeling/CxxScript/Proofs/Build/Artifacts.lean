import CxxScript.Proofs.Build.Order
import CxxScript.Proofs.Path.Relocation
import Mathlib.Tactic.Choose

/-!
# When two units share a derived file

The names of the files that are derived from a source begin with its trunk, which is its path
without the extension by which it was recognized as a source. The processed copy goes on with the
token of the run and that extension, the object with the token and `.o`; relocation mirrors the
trunk and leaves what follows. So two sources share their copies just when their trunks, at their
sites, and their extensions are the same, and they share their objects as soon as the trunks are:
`artifacts_coincide_iff`. `a.cpp` and `a.cc` share an object, `a` and `a.cpp` a copy as well.
-/

set_option autoImplicit false

namespace CxxScript

open Host CxxScript.Path

namespace CompilationUnit

/-! ## Trunks -/

/-- The extension by which a path is recognized as that of a source. -/
def sourceExtension? (p : Path) : Option String := p.extension?.filter sourceExtensions.contains

/-- The extension of the processed copy. -/
def copyExtension (p : Path) : String := (sourceExtension? p).getD "cpp"

/-- The text of a path without the extension by which it is recognized. -/
def trunk (p : Path) : String :=
  match sourceExtension? p with
  | some e => String.ofList (p.text.toList.reverse.drop (e.length + 1)).reverse
  | none => p.text

/-- What follows the trunk in the name of a derived file. -/
def ending (pid : Nat) (extension : String) : String := token pid ++ ("." ++ extension)

/-- The characters of the token of a run. -/
theorem toList_token (pid : Nat) :
    (token pid).toList = "-hbcxx-".toList ++ Nat.toDigits 10 pid := by
  show ("-" ++ toolName ++ "-" ++ Nat.repr pid).toList = _
  rw [String.toList_append, Nat.toList_repr]
  rfl

/-- A character of the token is a dash, a letter of the tool's name or a digit. -/
theorem not_mem_token {pid : Nat} {c : Char} (hname : c ∉ "-hbcxx-".toList)
    (hdigit : c.isDigit = false) : c ∉ (token pid).toList := by
  rw [toList_token, List.mem_append, not_or]
  refine ⟨hname, fun hmem => ?_⟩
  have := Nat.isDigit_of_mem_toDigits (by decide) (by decide) hmem
  rw [hdigit] at this
  cases this

/-- There is no slash in what follows the trunk. -/
theorem not_mem_ending {pid : Nat} {extension : String} (he : '/' ∉ extension.toList) :
    '/' ∉ (ending pid extension).toList := by
  rw [ending, String.toList_append, String.toList_append, List.mem_append, List.mem_append]
  rintro (htoken | hdot | hext)
  · exact not_mem_token (by decide) (by decide) htoken
  · exact absurd hdot (by decide)
  · exact he hext

/-- The token keeps the last piece of a derived name from being one that is left out. -/
theorem isName_append_token {l tail : List Char} (hl : '/' ∉ l) (pid : Nat) (htail : '/' ∉ tail) :
    IsName (l ++ ((token pid).toList ++ tail)) := by
  have hdash : '-' ∈ l ++ ((token pid).toList ++ tail) := by
    refine List.mem_append_right _ (List.mem_append_left _ ?_)
    rw [toList_token]
    simp
  refine ⟨?_, ?_, ?_, ?_⟩
  · intro heq; rw [heq] at hdash; cases hdash
  · intro heq; rw [heq] at hdash; exact absurd hdash (by decide)
  · intro heq; rw [heq] at hdash; exact absurd hdash (by decide)
  · rw [List.mem_append, List.mem_append, not_or, not_or]
    exact ⟨hl, not_mem_token (by decide) (by decide), htail⟩

/-- The last piece of a derived name is a name. -/
theorem isName_append_ending {l : List Char} (hl : '/' ∉ l) (pid : Nat) {extension : String}
    (he : '/' ∉ extension.toList) : IsName (l ++ (ending pid extension).toList) := by
  rw [ending, String.toList_append]
  refine isName_append_token hl pid ?_
  rw [String.toList_append, List.mem_append, not_or]
  exact ⟨by decide, he⟩

/-- The extension by which a source is recognized has no dot and no slash. -/
theorem not_mem_copyExtension (p : Path) :
    '.' ∉ (copyExtension p).toList ∧ '/' ∉ (copyExtension p).toList := by
  have hall : ∀ e ∈ sourceExtensions, '.' ∉ e.toList ∧ '/' ∉ e.toList := by decide
  have hcpp : '.' ∉ "cpp".toList ∧ '/' ∉ "cpp".toList := by decide
  rw [copyExtension]
  cases hs : sourceExtension? p with
  | none => exact hcpp
  | some e =>
    rw [sourceExtension?, Option.filter_eq_some_iff] at hs
    exact hall e (List.contains_iff_mem.mp hs.2)

/-- Derived names are the same when their trunks and their extensions are. -/
theorem append_ending_inj {pid : Nat} {s t e f : String} (he : '.' ∉ e.toList)
    (hf : '.' ∉ f.toList) :
    s ++ ending pid e = t ++ ending pid f ↔ s = t ∧ e = f := by
  constructor
  · intro heq
    -- The last dot of a derived name is the one before its extension.
    have hcut : ∀ (s e : String), '.' ∉ e.toList →
        cutName (s ++ ending pid e) = (s ++ token pid, some e) := by
      intro s e he
      have hne : (s ++ token pid).toList ≠ [] := by
        rw [String.toList_append, toList_token]
        simp
      have hlist : s ++ ending pid e =
          String.ofList ((s ++ token pid).toList ++ '.' :: e.toList) := by
        rw [← String.toList_inj, String.toList_ofList, ending]
        simp
      rw [hlist, cutName_append hne he, String.ofList_toList, String.ofList_toList]
    have hpair := congrArg cutName heq
    rw [hcut s e he, hcut t f hf] at hpair
    obtain ⟨hs, he⟩ := Prod.mk.inj hpair
    refine ⟨?_, Option.some.inj he⟩
    have hlists := congrArg String.toList hs
    rw [String.toList_append, String.toList_append] at hlists
    exact String.toList_inj.mp (List.append_cancel_right hlists)
  · rintro ⟨rfl, rfl⟩
    rfl

/-! ## Derived names -/

/-- The trunk is what stands before a dot and the extension by which a path is recognized. -/
theorem trunk_of_text {p : Path} {t e : String} (hs : sourceExtension? p = some e)
    (htext : p.text = t ++ ("." ++ e)) : trunk p = t := by
  have hreverse : p.text.toList.reverse = (e.toList.reverse ++ ['.']) ++ t.toList.reverse := by
    rw [htext, String.toList_append, String.toList_append, List.reverse_append, List.reverse_append]
    rfl
  have hlength : (e.toList.reverse ++ ['.']).length = e.length + 1 := by
    rw [List.length_append, List.length_reverse, String.length_toList]
    rfl
  rw [trunk, hs]
  dsimp only
  rw [hreverse, ← hlength, List.drop_left, List.reverse_reverse, String.ofList_toList]

/-- A normalized path that is recognized by its extension has a name that is cut before it. -/
theorem split_of_sourceExtension {q : Path} {e : String}
    (hs : sourceExtension? q.normalize = some e) :
    ∃ (dir : Path) (name : String), IsTidy dir ∧ IsName name.toList ∧
      q.normalize = ⟨dir.prefixText ++ name⟩ ∧ q.normalize.fileName? = some name ∧
      (cutName name).2 = some e ∧ name = (cutName name).1 ++ ("." ++ e) ∧
      trunk q.normalize = dir.prefixText ++ (cutName name).1 := by
  have hext : q.normalize.extension? = some e := (Option.filter_eq_some_iff.mp hs).1
  cases hname : q.normalize.fileName? with
  | none =>
    rw [extension?, hname] at hext
    cases hext
  | some name =>
    have hcut : (cutName name).2 = some e := by
      rw [extension?, hname] at hext
      exact hext
    obtain ⟨dir, htidy, hisname, hnorm⟩ := normalize_split hname
    have hsplit : name = (cutName name).1 ++ ("." ++ e) := by
      rw [← String.toList_inj, String.toList_append, String.toList_append]
      exact (toList_of_cutName hcut).1
    refine ⟨dir, name, htidy, hisname, hnorm, rfl, hcut, hsplit, trunk_of_text hs ?_⟩
    rw [hnorm, String.append_assoc, ← hsplit]

/-- There is a slash in the trunk of a normalized path just when there is one in the path. -/
theorem mem_trunk_normalize (q : Path) :
    '/' ∈ (trunk q.normalize).toList ↔ '/' ∈ q.normalize.text.toList := by
  cases hs : sourceExtension? q.normalize with
  | none => rw [trunk, hs]
  | some e =>
    obtain ⟨dir, name, -, hisname, hnorm, -, -, hsplit, htrunk⟩ := split_of_sourceExtension hs
    have hname : '/' ∉ (cutName name).1.toList := by
      intro hmem
      refine hisname.noSlash ?_
      rw [hsplit, String.toList_append]
      exact List.mem_append_left _ hmem
    have htext : q.normalize.text.toList = dir.prefixText.toList ++ name.toList := by
      rw [hnorm]
      exact String.toList_append
    rw [htrunk, htext, String.toList_append, List.mem_append, List.mem_append]
    simp only [hname, hisname.noSlash]

/-- The processed copy of a unit is named after its trunk and its extension. -/
theorem copyPath_normalize (pid : Nat) (q : Path) : copyPath pid q.normalize =
    ⟨trunk q.normalize ++ ending pid (copyExtension q.normalize)⟩ := by
  cases hs : sourceExtension? q.normalize with
  | none =>
    have hplain : copyPath pid q.normalize = ⟨q.normalize.text ++ token pid ++ ".cpp"⟩ := by
      unfold copyPath
      split
      · next stem extension _ hext =>
        have hmem : ¬sourceExtensions.contains extension = true := by
          intro hmem
          rw [sourceExtension?, hext, Option.filter_some, if_pos hmem] at hs
          cases hs
        rw [if_neg hmem]
      · rfl
    rw [hplain, trunk, copyExtension, hs, ending, String.append_assoc]
    rfl
  | some e =>
    obtain ⟨dir, name, htidy, hisname, hnorm, hname, hcut, hsplit, htrunk⟩ :=
      split_of_sourceExtension hs
    have hmem : sourceExtensions.contains e = true := (Option.filter_eq_some_iff.mp hs).2
    have hstem : q.normalize.stem? = some (cutName name).1 := by rw [stem?, hname]; rfl
    have hext : q.normalize.extension? = some e := (Option.filter_eq_some_iff.mp hs).1
    have hlist : name.toList = (cutName name).1.toList ++ ("." ++ e).toList := by
      rw [← String.toList_append, ← hsplit]
    have hother : '/' ∉ ((cutName name).1 ++ token pid ++ "." ++ e).toList := by
      rw [String.append_assoc, String.append_assoc, String.toList_append, List.mem_append, not_or]
      refine ⟨fun h => hisname.noSlash ?_, not_mem_ending fun h => hisname.noSlash ?_⟩
      · rw [hlist]
        exact List.mem_append_left _ h
      · rw [hlist, String.toList_append]
        exact List.mem_append_right _ (List.mem_append_right _ h)
    rw [copyPath, hstem, hext]
    dsimp only
    rw [if_pos hmem, withFileName_of_tidy htidy hisname hother hnorm, htrunk, copyExtension, hs,
      ending, Option.getD_some]
    simp only [String.append_assoc]

/-- A text that a derived name begins with ends with a last piece of it. -/
theorem split_ending (t : String) (pid : Nat) (e : String) :
    (⟨t ++ ending pid e⟩ : Path).text.toList =
      leadOf t.toList ++ (lastOf t.toList ++ (ending pid e).toList) := by
  rw [← List.append_assoc, leadOf_append_lastOf]
  exact String.toList_append

/-- Another extension of a derived name takes the place of its own. -/
theorem withExtension_ending (t : String) (pid : Nat) {e : String} (he : '.' ∉ e.toList)
    (hslash : '/' ∉ e.toList) (f : String) : (⟨t ++ ending pid e⟩ : Path).withExtension f =
      ⟨t ++ (token pid ++ if f.isEmpty then "" else "." ++ f)⟩ := by
  have hname : IsName (lastOf t.toList ++ (ending pid e).toList) :=
    isName_append_ending (not_mem_lastOf t.toList) pid hslash
  have hne : lastOf t.toList ++ (token pid).toList ≠ [] := by
    rw [toList_token]
    simp
  have hlist : lastOf t.toList ++ (ending pid e).toList =
      (lastOf t.toList ++ (token pid).toList) ++ '.' :: e.toList := by
    rw [ending, String.toList_append, String.toList_append, List.append_assoc]
    rfl
  have hcut : (cutName (String.ofList (lastOf t.toList ++ (ending pid e).toList))).1 =
      String.ofList (lastOf t.toList ++ (token pid).toList) := by
    rw [hlist, cutName_append hne he]
  have hdot : String.ofList (lastOf t.toList ++ (token pid).toList) ≠ "." := by
    intro heq
    have hchars := congrArg String.toList heq
    rw [String.toList_ofList] at hchars
    have hdash : '-' ∈ ".".toList := by
      rw [← hchars, toList_token]
      simp
    exact absurd hdash (by decide)
  rw [withExtension_of_split (split_ending t pid e) (isLead_leadOf _) hname f
    (by rw [hcut]; exact hdot), hcut]
  refine congrArg Path.mk ?_
  rw [← String.toList_inj]
  simp only [String.toList_append, String.toList_ofList, List.append_assoc]
  rw [← List.append_assoc, leadOf_append_lastOf]

end CompilationUnit

namespace Site

/-- The trunk of the names of files that are derived at a site. -/
def trunk (m : Machine) (root : Path) : Site → String → String
  | beside, t => t
  | below seen, t => Path.mirror root (view? m seen) t

/-- A name at a site is the trunk that it begins with at that site, with the same behind it. -/
theorem path_append (m : Machine) (root : Path) (s : Site) {t tail : String}
    (hn : Path.IsName (Path.lastOf t.toList ++ tail.toList)) :
    s.path m root ⟨t ++ tail⟩ = ⟨s.trunk m root t ++ tail⟩ := by
  cases s with
  | beside => rfl
  | below seen => exact Path.relocate_append root _ hn

/-- A derived name at a site is the trunk at that site with the same ending. -/
theorem path_ending (m : Machine) (root : Path) (s : Site) (t : String) (pid : Nat) {e : String}
    (he : '/' ∉ e.toList) : s.path m root ⟨t ++ CompilationUnit.ending pid e⟩ =
      ⟨s.trunk m root t ++ CompilationUnit.ending pid e⟩ :=
  s.path_append m root
    (CompilationUnit.isName_append_ending (Path.not_mem_lastOf t.toList) pid he)

end Site

namespace CompilationUnit

/-! ## The derived files of collected units -/

variable {m : Machine} {cfg : Config}

/-- The place of an object is a site for the name that the copy's gives. -/
theorem object_site {u : CompilationUnit} (hu : u.object? = none) (h : Host) :
    Leads (u.object m cfg) h fun r _ => ∀ p, r.1 = .ok p →
      ∃ s : Site, p = s.path m cfg.cacheRoot (u.copy.withExtension "o") := by
  refine (object_yields m cfg u h).mono fun r h' hyields => ?_
  cases hyields with
  | header => exact fun p hp => by cases hp
  | known _ hknown => rw [hu] at hknown; cases hknown
  | asked _ _ hasked => cases hasked
  | missing => exact fun p hp => by cases hp
  | found _ _ _ hfind =>
    obtain ⟨s, rfl⟩ := (leads_of_run hfind _).mp (Placement.find_site m _ _ h) _ rfl
    rintro p ⟨⟩
    exact ⟨s, rfl⟩

/-- The unit stands for a normalized path, its copy is at a site of the name that this path gives,
and it has no object yet. -/
structure IsNamed (m : Machine) (cfg : Config) (u : CompilationUnit) : Prop where
  path : ∃ q : Path, u.path = q.normalize
  copy : ∃ s : Site, u.copy = s.path m cfg.cacheRoot (copyPath m.pid u.path)
  object? : u.object? = none

/-- A visited unit is named if it was made from a path. -/
theorem isNamed_result {v : Discovery.Visit} (hv : v.Runs m cfg) {h : Host} {kind : UnitKind}
    {p : Path} (hp : v.unit = .ofPath m h kind p) : v.result.IsNamed m cfg := by
  have hscanned := hv.scanned (Discovery.trivialFrame m cfg).toFrame (Discovery.trivialFrame m cfg)
  have hfollows : v.unit.Follows v.result := hscanned.follows
  obtain ⟨s, hs⟩ : ∃ s : Site, v.result.copy = s.path m cfg.cacheRoot v.unit.copy := hscanned.copy
  refine ⟨⟨p, ?_⟩, ⟨s, ?_⟩, ?_⟩
  · rw [hfollows.path, hp]
    rfl
  · rw [hs, hfollows.path, hp]
    rfl
  · rw [hfollows.object?, hp]
    rfl

/-- Collected units are named. -/
theorem isNamed_of_collected {h₀ h h' : Host} {kind : UnitKind} {script : Path} {ts ts' : Toolset}
    {visits : List Discovery.Visit} {units : List CompilationUnit}
    (hc : Discovery.Collected m cfg (.ofPath m h₀ kind script) ts h visits units ts' h') :
    ∀ u ∈ units, u.IsNamed m cfg := by
  intro u hu
  rw [hc.once] at hu
  obtain ⟨v, hv, rfl⟩ := List.mem_map.mp hu
  obtain ⟨n, hsteps⟩ := hc.course
  rcases Discovery.found_of_reached hsteps.progress.reached hv with hfirst | ⟨w, hw, hfound⟩
  · exact isNamed_result (hc.runs v hv).1 (List.mem_singleton.mp hfirst)
  · have hmade := (hc.runs w hw).1.made (Discovery.trivialFrame m cfg).toFrame v.unit hfound
    obtain ⟨h₁, kind₁, p, -, hp⟩ := hmade
    exact isNamed_result (hc.runs v hv).1 hp

/-- The copy of a named unit at its site. -/
theorem copy_of_site {u : CompilationUnit} (hu : u.IsNamed m cfg) {s : Site}
    (hs : u.copy = s.path m cfg.cacheRoot (copyPath m.pid u.path)) :
    u.copy = ⟨s.trunk m cfg.cacheRoot (trunk u.path) ++ ending m.pid (copyExtension u.path)⟩ := by
  obtain ⟨q, hq⟩ := hu.path
  rw [hs, hq, copyPath_normalize,
    Site.path_ending m cfg.cacheRoot s _ _ (not_mem_copyExtension _).2]

/-- The object of a named unit whose copy is at a site, at its own site. -/
theorem object_of_site {u : CompilationUnit} (hu : u.IsNamed m cfg) {s : Site}
    (hs : u.copy = s.path m cfg.cacheRoot (copyPath m.pid u.path)) (t : Site) :
    t.path m cfg.cacheRoot (u.copy.withExtension "o") =
      ⟨t.trunk m cfg.cacheRoot (s.trunk m cfg.cacheRoot (trunk u.path)) ++ ending m.pid "o"⟩ := by
  obtain ⟨hdot, hslash⟩ := not_mem_copyExtension u.path
  have hobject : (token m.pid ++ if "o".isEmpty then "" else "." ++ "o") = ending m.pid "o" := rfl
  rw [copy_of_site hu hs, withExtension_ending _ m.pid hdot hslash "o", hobject,
    Site.path_ending m cfg.cacheRoot t _ _ (by decide)]

end CompilationUnit

namespace Build

open CompilationUnit

/-- After the files of a script have been collected without a failure, two units have the same copy
just when their trunks at the sites of the copies are the same and their extensions are, and they
are given the same object just when the trunks at the sites of the objects are the same. -/
theorem artifacts_coincide_iff {m : Machine} {h₀ h h' : Host} {cfg : Config} {script : Path}
    {ts ts' : Toolset} {b : Build}
    (hd : ((Build.ofPath m h₀ cfg script).discover m ts).run h = ((.ok (), b, ts'), h')) :
    ∃ site : CompilationUnit → Site,
      (∀ u ∈ b.units, u.copy = (site u).path m cfg.cacheRoot (copyPath m.pid u.path)) ∧
      ∀ u ∈ b.units, ∀ v ∈ b.units,
        (u.copy = v.copy ↔
          (site u).trunk m cfg.cacheRoot (trunk u.path) =
              (site v).trunk m cfg.cacheRoot (trunk v.path) ∧
            copyExtension u.path = copyExtension v.path) ∧
        ∀ h₁ h₁' h₂ h₂' p q u' v',
          (u.object m cfg).run h₁ = ((.ok p, u'), h₁') →
          (v.object m cfg).run h₂ = ((.ok q, v'), h₂') →
          ∃ s t : Site, p = s.path m cfg.cacheRoot (u.copy.withExtension "o") ∧
            q = t.path m cfg.cacheRoot (v.copy.withExtension "o") ∧
            (p = q ↔
              s.trunk m cfg.cacheRoot ((site u).trunk m cfg.cacheRoot (trunk u.path)) =
                t.trunk m cfg.cacheRoot ((site v).trunk m cfg.cacheRoot (trunk v.path))) := by
  obtain ⟨n, vs, hsteps⟩ := steps_of_discover hd
  have hnamed := isNamed_of_collected (hsteps.collected rfl)
  choose! site hsite using fun u (hu : u ∈ b.units) => (hnamed u hu).copy
  refine ⟨site, hsite, fun u hu v hv => ⟨?_, ?_⟩⟩
  · rw [copy_of_site (hnamed u hu) (hsite u hu), copy_of_site (hnamed v hv) (hsite v hv),
      Path.mk.injEq, append_ending_inj (not_mem_copyExtension _).1 (not_mem_copyExtension _).1]
  · intro h₁ h₁' h₂ h₂' p q u' v' hp hq
    obtain ⟨s, hs⟩ := (leads_of_run hp _).mp (object_site (hnamed u hu).object? h₁) p rfl
    obtain ⟨t, ht⟩ := (leads_of_run hq _).mp (object_site (hnamed v hv).object? h₂) q rfl
    refine ⟨s, t, hs, ht, ?_⟩
    rw [hs, ht, object_of_site (hnamed u hu) (hsite u hu),
      object_of_site (hnamed v hv) (hsite v hv), Path.mk.injEq,
      append_ending_inj (by decide) (by decide)]
    exact and_iff_left rfl

/-- The host of a source that names two pairs of files: in one they differ in their extensions, in
the other one of them has none. -/
def twins : Host where
  files :=
    { entries := [
        (["m.cpp"], .file (Text.Utf8.encode ("//#! source: a.cpp\n//#! source: a.cc\n" ++
          "//#! source: x\n//#! source: x.cpp\n")) false),
        (["a.cpp"], .file [] false), (["a.cc"], .file [] false),
        (["x"], .file [] false), (["x.cpp"], .file [] false)] }

/-- Collecting the files of that source. -/
def twinsRun : (Except Failure Unit × Build × Toolset) × Host :=
  ((Build.ofPath (idleMachine [] 7) twins (plainConfig "/cache") ⟨"m.cpp"⟩).discover
    (idleMachine [] 7) (.ofConfig (plainConfig "/cache"))).run twins

/-- The names of the objects of the collected units, each asked for in the host that is left. -/
def twinsObjects : List (Option String) :=
  twinsRun.1.2.1.units.map fun u =>
    ((u.object (idleMachine [] 7) (plainConfig "/cache")).run twinsRun.2).1.1.toOption.map (·.text)

/-- The files of the first pair share their object, those of the second their copy as well. -/
theorem artifacts_coincide_twins :
    twinsRun.1.2.1.units.map (·.path.text) = ["m.cpp", "a.cpp", "a.cc", "x", "x.cpp"] ∧
      twinsRun.1.2.1.units.map (·.copy.text) = ["m-hbcxx-7.cpp", "a-hbcxx-7.cpp", "a-hbcxx-7.cc",
        "x-hbcxx-7.cpp", "x-hbcxx-7.cpp"] ∧
      twinsObjects = [some "m-hbcxx-7.o", some "a-hbcxx-7.o", some "a-hbcxx-7.o",
        some "x-hbcxx-7.o", some "x-hbcxx-7.o"] ∧
      ∃ site : CompilationUnit → Site, ∀ u ∈ twinsRun.1.2.1.units, ∀ v ∈ twinsRun.1.2.1.units,
        u.copy = v.copy ↔
          (site u).trunk (idleMachine [] 7) ⟨"/cache"⟩ (trunk u.path) =
              (site v).trunk (idleMachine [] 7) ⟨"/cache"⟩ (trunk v.path) ∧
            copyExtension u.path = copyExtension v.path := by
  have hok : twinsRun.1.1.isOk = true := by decide +kernel
  refine ⟨by decide +kernel, by decide +kernel, by decide +kernel, ?_⟩
  obtain ⟨⟨result, b, ts'⟩, h', hr⟩ := exists_run ((Build.ofPath (idleMachine [] 7) twins
    (plainConfig "/cache") ⟨"m.cpp"⟩).discover (idleMachine [] 7)
    (.ofConfig (plainConfig "/cache"))) twins
  have hrun : twinsRun = ((result, b, ts'), h') := hr
  rw [hrun] at hok ⊢
  cases result with
  | error e => cases hok
  | ok _ =>
    obtain ⟨site, -, hiff⟩ := artifacts_coincide_iff hr
    exact ⟨site, fun u hu v hv => (hiff u hu v hv).1⟩

end Build

end CxxScript

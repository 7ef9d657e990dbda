import CxxScript.Proofs.Path.Normalizing

/-!
# One spelling for each path

What a path says is where it begins and the pieces of its text that are neither empty nor a `.`.
Normalizing gives one spelling to all paths that say the same, `normalize_eq_iff`. The directory of
a path says what the path says but for the last component, however the two are spelled,
`route_directory`. So a target that is named inside a file leads to one place, whatever the spelling
of the file and of the target: `normalize_canonical`.
-/

set_option autoImplicit false

namespace CxxScript.Path

/-- The components of a path that say something. -/
def route (p : Path) : List Component := p.components.filter (· ≠ .here)

/-- Whether a piece says something: it is neither empty nor `.`. -/
def isTelling (n : List Char) : Bool := n ≠ [] && n ≠ ['.']

/-- The pieces of a text that say something. -/
def tellingPieces (s : List Char) : List (List Char) := (pieces s).filter isTelling

/-- The directory of a path, which is empty where the path has none. -/
def directory (p : Path) : Path := p.parent?.getD ⟨""⟩

/-! ## What a path says -/

/-- A piece stands for a component just when it says something, and the component is written as
the piece. -/
theorem map_text_ofPiece? (n : List Char) :
    (Component.ofPiece? n).map (fun c => c.text.toList) = Option.guard isTelling n := by
  cases hn : Component.ofPiece? n with
  | none =>
    have hsilent : isTelling n = false := by
      unfold Component.ofPiece? at hn
      split at hn
      · next h =>
        have hnone : n = [] ∨ n = ['.'] := by simpa using h
        rcases hnone with rfl | rfl <;> rfl
      · split at hn <;> cases hn
    simp [Option.guard, hsilent]
  | some c =>
    have htelling : isTelling n = true := by
      simp only [isTelling, Bool.and_eq_true, decide_eq_true_eq]
      constructor <;>
      · rintro rfl
        cases hn
    simp [Option.guard, htelling, text_of_ofPiece? hn]

/-- What the steps are written as are the pieces that say something. -/
theorem map_text_steps (s : List Char) :
    (steps s).map (fun c => c.text.toList) = tellingPieces s := by
  rw [steps, List.map_filterMap, tellingPieces, ← List.filterMap_eq_filter]
  simp only [map_text_ofPiece?]

/-- Two texts spell the same steps just when they have the same pieces that say something. -/
theorem steps_eq_iff (s t : List Char) : steps s = steps t ↔ tellingPieces s = tellingPieces t := by
  constructor
  · intro heq
    rw [← map_text_steps, ← map_text_steps, heq]
  · intro heq
    have hback : ∀ s, (tellingPieces s).filterMap Component.ofPiece? = steps s := by
      intro s
      rw [← map_text_steps]
      exact filterMap_ofPiece?_texts fun c hc => ⟨s, hc⟩
    rw [← hback s, ← hback t, heq]

/-- A route is the root, if the path is absolute, and the steps that the text spells. -/
theorem route_eq (p : Path) :
    p.route = (if p.isAbsolute then [.root] else []) ++ steps p.text.toList := components_filter p

/-- Two paths say the same just when both begin at the root or neither does, and they have the same
steps. -/
theorem route_eq_iff (p q : Path) : p.route = q.route ↔
    p.isAbsolute = q.isAbsolute ∧ steps p.text.toList = steps q.text.toList := by
  constructor
  · intro heq
    have hfirst : ∀ p : Path, p.isAbsolute = true ↔ p.route.head? = some .root := by
      intro p
      rw [route_eq]
      cases p.isAbsolute with
      | true => simp
      | false =>
        simp only [Bool.false_eq_true, if_false, List.nil_append, false_iff]
        exact fun hhead => root_not_mem_steps _ (List.mem_of_head? hhead)
    have habsolute : p.isAbsolute = q.isAbsolute := by
      rw [Bool.eq_iff_iff, hfirst, hfirst, heq]
    rw [route_eq, route_eq, habsolute] at heq
    exact ⟨habsolute, List.append_cancel_left heq⟩
  · rintro ⟨habsolute, hsteps⟩
    rw [route_eq, route_eq, habsolute, hsteps]

/-! ## Normal forms -/

/-- A normalized path has the same route. -/
theorem route_normalize (p : Path) : p.normalize.route = p.route :=
  (route_eq_iff _ _).mpr ⟨isAbsolute_normalize p, steps_normalize p⟩

/-- Paths have one normal form just when they say the same. -/
theorem normalize_eq_iff (p q : Path) : p.normalize = q.normalize ↔ p.route = q.route := by
  constructor
  · intro heq
    rw [← route_normalize p, heq, route_normalize]
  · intro heq
    rw [route, route] at heq
    rw [normalize, normalize, heq]

/-- To normalize a path twice is to do it once. -/
theorem normalize_normalize (p : Path) : p.normalize.normalize = p.normalize :=
  (normalize_eq_iff _ _).mpr (route_normalize p)

/-! ## Directories -/

/-- What stands before the slashes and dots at the end of a text is the beginning of it. -/
theorem dropTail_suffix (r : List Char) : dropTail r <:+ r := by
  fun_induction dropTail r with
  | case1 rest ih => exact ih.trans (List.suffix_cons _ _)
  | case2 rest ih => exact ih.trans ((List.suffix_cons _ _).trans (List.suffix_cons _ _))
  | case3 s => exact List.suffix_rfl

/-- What is dropped from the end of a text says nothing. -/
theorem steps_dropTail (r : List Char) : steps (dropTail r).reverse = steps r.reverse := by
  have hslash : ∀ rest : List Char, steps (rest.reverse ++ ['/']) = steps rest.reverse :=
    fun rest => steps_append_slash rest.reverse
  fun_induction dropTail r with
  | case1 rest ih => rw [ih, List.reverse_cons, hslash]
  | case2 rest ih =>
    have hhere : steps ['.'] = [] := by decide
    rw [ih, List.reverse_cons, List.reverse_cons, steps_append (.inr ⟨_, rfl⟩), hslash, hhere,
      List.append_nil]
  | case3 s => rfl

/-- Neither a slash nor a dot behind one is left at the end. -/
theorem dropTail_ne (r rest : List Char) :
    dropTail r ≠ '/' :: rest ∧ dropTail r ≠ '.' :: '/' :: rest := by
  fun_induction dropTail r with
  | case1 _ ih => exact ih
  | case2 _ ih => exact ih
  | case3 s hslash hhere => exact ⟨hslash rest, hhere rest⟩

/-- What is left is empty, or it ends with a piece that is not empty and is no `.`, unless the `.`
is all that is left. -/
theorem dropTail_split (r : List Char) : dropTail r = [] ∨ dropTail r = ['.'] ∨
    ∃ d n, (dropTail r).reverse = d ++ n ∧ IsLead d ∧ n ≠ [] ∧ n ≠ ['.'] ∧ '/' ∉ n := by
  obtain ⟨t, ht⟩ : ∃ t, (dropTail r).reverse = t := ⟨_, rfl⟩
  have hback : dropTail r = t.reverse := by rw [← ht, List.reverse_reverse]
  have hsplit := leadOf_append_lastOf t
  have hlead := isLead_leadOf t
  by_cases hnil : lastOf t = []
  · rw [hnil, List.append_nil] at hsplit
    rcases hlead with hd | ⟨d, hd⟩
    · refine .inl ?_
      rw [hback, ← hsplit, hd, List.reverse_nil]
    · refine absurd ?_ (dropTail_ne r d.reverse).1
      rw [hback, ← hsplit, hd]
      simp
  by_cases hhere : lastOf t = ['.']
  · rw [hhere] at hsplit
    rcases hlead with hd | ⟨d, hd⟩
    · refine .inr (.inl ?_)
      rw [hback, ← hsplit, hd]
      rfl
    · refine absurd ?_ (dropTail_ne r d.reverse).2
      rw [hback, ← hsplit, hd]
      simp
  · exact .inr (.inr ⟨leadOf t, lastOf t, ht.trans hsplit.symm, hlead, hnil, hhere,
      not_mem_lastOf t⟩)

/-- A path whose text spells no step leads to the root or stays where it is. -/
theorem route_of_silent {p : Path} (hp : steps p.text.toList = []) :
    p.route = if p.isAbsolute then [.root] else [] := by
  rw [route_eq, hp, List.append_nil]

/-- A path that has no steps has no directory, or an empty one. -/
theorem directory_of_silent {p : Path} (hp : steps p.text.toList = []) : p.directory = ⟨""⟩ := by
  have hcomponents := components_eq p
  rw [hp, List.append_nil] at hcomponents
  rw [directory, parent?]
  split at hcomponents
  · rw [hcomponents]
    rfl
  · split at hcomponents
    · -- All that the path spells is a `.`, which is dropped or taken for its name.
      have hdrop : (dropTail p.text.toList.reverse).drop 1 = [] := by
        have hsteps := steps_dropTail p.text.toList.reverse
        rw [List.reverse_reverse, hp] at hsteps
        rcases dropTail_split p.text.toList.reverse with hnil | hhere | ⟨d, n, hsplit, hd, h⟩
        · rw [hnil]
          rfl
        · rw [hhere]
          rfl
        · rw [hsplit, steps_append hd] at hsteps
          exact absurd (List.append_eq_nil_iff.mp hsteps).2 (steps_ne_nil h.1 h.2.1 h.2.2)
      rw [hcomponents]
      have hone : Component.here.text.length = 1 := rfl
      simp only [List.reverse_singleton, hone, hdrop]
      rfl
    · rw [hcomponents]
      rfl

/-- A piece that says something is one step, with that text. -/
theorem exists_step {n : List Char} (hnil : n ≠ []) (hhere : n ≠ ['.']) (hslash : '/' ∉ n) :
    ∃ c, steps n = [c] ∧ c.text.toList = n := by
  have hne := steps_ne_nil hnil hhere hslash
  rw [steps, pieces_of_not_mem hslash] at hne ⊢
  cases hn : Component.ofPiece? n with
  | none =>
    rw [List.filterMap_cons_none hn] at hne
    exact absurd rfl hne
  | some c => exact ⟨c, List.filterMap_cons_some hn, text_of_ofPiece? hn⟩

/-- What is left of a text is its last step, behind the text of those before it. -/
theorem dropTail_of_steps {s : List Char} {before : List Component} {c : Component}
    (hs : steps s = before ++ [c]) :
    ∃ d, dropTail s.reverse = c.text.toList.reverse ++ d.reverse ∧ steps d = before := by
  have hsteps := steps_dropTail s.reverse
  rw [List.reverse_reverse, hs] at hsteps
  rcases dropTail_split s.reverse with hnil | hhere | ⟨d, n, hsplit, hd, hn, hne, hslash⟩
  · rw [hnil] at hsteps
    exact absurd hsteps.symm (List.concat_ne_nil c before)
  · rw [hhere] at hsteps
    exact absurd hsteps.symm (List.concat_ne_nil c before)
  · obtain ⟨c', hc', htext⟩ := exists_step hn hne hslash
    rw [hsplit, steps_append hd, hc'] at hsteps
    obtain ⟨hbefore, hlast⟩ := List.append_inj' hsteps rfl
    obtain rfl := (List.cons.inj hlast).1
    refine ⟨d, ?_, hbefore⟩
    rw [htext, ← List.reverse_append, ← hsplit, List.reverse_reverse]

/-- The directory of a path leads where the path leads but for the last component. -/
theorem route_directory (p : Path) : p.directory.route = p.route.dropLast := by
  rcases List.eq_nil_or_concat (steps p.text.toList) with hnone | ⟨before, c, hconcat⟩
  · have hempty : (⟨""⟩ : Path).route = [] := by decide
    rw [directory_of_silent hnone, hempty, route_of_silent hnone]
    split <;> rfl
  rw [List.concat_eq_append] at hconcat
  obtain ⟨d, hdrop, hd⟩ := dropTail_of_steps hconcat
  have hcomponents := components_eq p
  rw [hconcat, ← List.append_assoc] at hcomponents
  have hroot : c ≠ .root := by
    rintro rfl
    exact root_not_mem_steps p.text.toList (by simp [hconcat])
  rw [route_eq p, hconcat, ← List.append_assoc, List.dropLast_concat]
  by_cases hrest : (if p.isAbsolute then [.root]
      else if (pieces p.text.toList).head? = some ['.'] then [.here] else []) ++ before = [.root]
  · have hdirectory : p.directory = ⟨"/"⟩ := by
      rw [directory, parent?, hcomponents, hrest]
      cases c with
      | root => exact absurd rfl hroot
      | here | up | name text => rfl
    have habsolute : p.isAbsolute = true := by
      rw [isAbsolute_iff, hcomponents, hrest]
      rfl
    rw [if_pos habsolute] at hrest ⊢
    rw [hdirectory, hrest]
    decide
  · have hparent := parent?_of_last hcomponents hroot hrest hdrop
    have hdirectory : p.directory = ⟨String.ofList (dropTail d.reverse).reverse⟩ := by
      rw [directory, hparent]
      rfl
    have hsteps : steps (dropTail d.reverse).reverse = before := by
      rw [steps_dropTail, List.reverse_reverse, hd]
    have hfront : (dropTail d.reverse).reverse <+: p.text.toList := by
      rw [← List.reverse_suffix, List.reverse_reverse]
      refine (dropTail_suffix _).trans ((List.suffix_append c.text.toList.reverse _).trans ?_)
      rw [← hdrop]
      exact dropTail_suffix _
    rw [hdirectory, route_eq, isAbsolute, String.toList_ofList, hsteps]
    cases hleft : (dropTail d.reverse).reverse with
    | nil =>
      -- Nothing is left of a path that begins with its last component, so this is no root.
      rw [hleft] at hsteps
      have hnone : before = [] := hsteps.symm
      have hrelative : p.isAbsolute = false := by
        rw [← Bool.not_eq_true]
        intro habsolute
        exact hrest (by rw [if_pos habsolute, hnone]; rfl)
      rw [hrelative]
      rfl
    | cons x more =>
      rw [hleft] at hfront
      obtain ⟨rest, hrest⟩ := hfront
      rw [isAbsolute, ← hrest]
      rfl

/-! ## Targets -/

/-- What is joined to a path leads on from where the path leads. -/
theorem route_join {p q : Path} (hq : q.isAbsolute = false) :
    (p.join q).route = p.route ++ q.route := by
  have hroute : q.route = steps q.text.toList := by rw [route_eq, hq]; rfl
  by_cases hp : p.text = ""
  · obtain rfl : p = ⟨""⟩ := by cases p; exact congrArg Path.mk hp
    have hjoin : (⟨""⟩ : Path).join q = q := by
      rw [join_of_relative _ hq]
      exact congrArg Path.mk String.empty_append
    have hempty : (⟨""⟩ : Path).route = [] := by decide
    rw [hjoin, hempty, List.nil_append]
  · have hsteps : (steps q.text.toList).filter (· ≠ .here) = steps q.text.toList := by
      rw [← hroute, route, List.filter_filter]
      simp
    rw [route, components_join hp hq, List.filter_append, hsteps, hroute]
    rfl

/-- A target leads to the absolute path that it is, or on from the directory of the file that it is
named in. -/
theorem resolveFrom_eq (file : Path) (target : String) :
    file.resolveFrom target =
      if (⟨target⟩ : Path).isAbsolute then (⟨target⟩ : Path).normalize
      else (file.directory.join ⟨target⟩).normalize := rfl

/-- The route of what a file names is that of the file's directory and that of the name. -/
theorem route_resolveFrom {file : Path} {target : String}
    (ht : (⟨target⟩ : Path).isAbsolute = false) :
    (file.resolveFrom target).route = file.route.dropLast ++ (⟨target⟩ : Path).route := by
  rw [resolveFrom_eq, ht, if_neg Bool.false_ne_true, route_normalize, route_join ht,
    route_directory]

/-- A normal form is the same for all paths that begin at the root, or for all that do not, and that
have the same pieces but for empty ones and `.`, and for no others. It is its own normal form. A
target that is named inside a file is normalized when it is absolute, and else leads on from the
directory of the file; which spelling the file and the target have is of no account. -/
theorem normalize_canonical :
    (∀ p q : Path,
      (p.normalize = q.normalize ↔
        p.isAbsolute = q.isAbsolute ∧ tellingPieces p.text.toList = tellingPieces q.text.toList) ∧
      (p.normalize.components = q.normalize.components → p.normalize = q.normalize)) ∧
    (∀ p : Path, p.normalize.normalize = p.normalize) ∧
    (∀ (file : Path) (target : String),
      ((⟨target⟩ : Path).isAbsolute = true →
        file.resolveFrom target = (⟨target⟩ : Path).normalize) ∧
      ((⟨target⟩ : Path).isAbsolute = false →
        (file.resolveFrom target).normalize = file.resolveFrom target ∧
        (file.resolveFrom target).route = file.directory.route ++ (⟨target⟩ : Path).route ∧
        file.directory.route = file.route.dropLast)) ∧
    ∀ (file file' : Path) (target target' : String), file.normalize = file'.normalize →
      (⟨target⟩ : Path).normalize = (⟨target'⟩ : Path).normalize →
      file.resolveFrom target = file'.resolveFrom target' := by
  have hnormal : ∀ (file : Path) (target : String),
      (file.resolveFrom target).normalize = file.resolveFrom target := by
    intro file target
    rw [resolveFrom_eq]
    split <;> exact normalize_normalize _
  refine ⟨fun p q => ⟨?_, ?_⟩, normalize_normalize, fun file target => ⟨?_, ?_⟩, ?_⟩
  · rw [normalize_eq_iff, route_eq_iff, steps_eq_iff]
  · intro heq
    rw [← normalize_normalize p, ← normalize_normalize q, normalize_eq_iff, route, route, heq]
  · intro habsolute
    rw [resolveFrom_eq, if_pos habsolute]
  · intro hrelative
    refine ⟨hnormal file target, ?_, route_directory file⟩
    rw [route_resolveFrom hrelative, route_directory]
  · intro file file' target target' hfile htarget
    rw [normalize_eq_iff] at hfile htarget
    have hbegin := ((route_eq_iff _ _).mp htarget).1
    cases hrelative : (⟨target⟩ : Path).isAbsolute with
    | true =>
      rw [resolveFrom_eq, resolveFrom_eq, ← hbegin, hrelative, if_pos rfl, if_pos rfl,
        normalize_eq_iff]
      exact htarget
    | false =>
      rw [← hnormal file, ← hnormal file', normalize_eq_iff, route_resolveFrom hrelative,
        route_resolveFrom (hbegin.symm.trans hrelative), hfile, htarget]

/-- A file and a target in two spellings each, a target that leads out of the directory of its file,
and an absolute one. -/
theorem normalize_canonical_spellings :
    (⟨"./main.cpp"⟩ : Path).normalize = (⟨"main.cpp/."⟩ : Path).normalize ∧
      (⟨".././/util.h"⟩ : Path).normalize = (⟨"../util.h/"⟩ : Path).normalize ∧
      (⟨"./main.cpp"⟩ : Path).resolveFrom ".././/util.h" =
        (⟨"main.cpp/."⟩ : Path).resolveFrom "../util.h/" ∧
      ((⟨"/a//b"⟩ : Path).resolveFrom "./../util.h").route =
        [.root, .name "a"] ++ [.up, .name "util.h"] ∧
      (⟨"./main.cpp"⟩ : Path).resolveFrom "/opt//x.h" = (⟨"/opt//x.h"⟩ : Path).normalize := by
  obtain ⟨hforms, -, htargets, hsame⟩ := normalize_canonical
  have hfile := (hforms ⟨"./main.cpp"⟩ ⟨"main.cpp/."⟩).2 (by decide)
  have htarget := (hforms ⟨".././/util.h"⟩ ⟨"../util.h/"⟩).1.mpr (by decide)
  obtain ⟨-, habove, hdirectory⟩ := (htargets ⟨"/a//b"⟩ "./../util.h").2 (by decide)
  refine ⟨hfile, htarget, hsame _ _ _ _ hfile htarget, ?_,
    (htargets ⟨"./main.cpp"⟩ "/opt//x.h").1 (by decide)⟩
  rw [habove, hdirectory]
  decide

/-- With a slash in front it is another file. -/
example : (⟨"./main.cpp"⟩ : Path).normalize ≠ (⟨"/main.cpp"⟩ : Path).normalize := by decide

end CxxScript.Path

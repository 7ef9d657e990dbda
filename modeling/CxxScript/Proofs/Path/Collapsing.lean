import CxxScript.Host.Walk
import CxxScript.Proofs.Path.Below

/-!
# A location and a key

A path is collapsed twice, to the names that a relocated file repeats below a root and to the
components of the key of a file that does not exist. Both go through the components in step: the key
has the names behind its root or behind the `..` that lead out of a relative path,
`foldl_keyStep_lexicalComponents`. So a file is relocated under the names of its key, and two files
meet below the root just when they have one key: `relocate_repeats_key`.
-/

set_option autoImplicit false

namespace CxxScript.Path

/-! ## Spelling components -/

/-- A step is written as a text that spells it. -/
theorem steps_text {s : List Char} {c : Component} (hc : c ∈ steps s) :
    steps c.text.toList = [c] := by
  rcases eq_up_or_isName_of_mem_steps hc with rfl | ⟨n, hn, rfl⟩
  · decide
  · rw [Component.text, String.toList_ofList]
    exact steps_of_isName hn

/-- A step that is joined to a path is its last component then. -/
theorem components_join_step (p : Path) {s : List Char} {c : Component} (hc : c ∈ steps s) :
    (p.join ⟨c.text⟩).components = p.components ++ [c] := by
  obtain ⟨-, hhere, hslash⟩ := text_of_mem_steps hc
  have hrelative : (⟨c.text⟩ : Path).isAbsolute = false := isAbsolute_of_not_mem hslash
  by_cases hempty : p.text = ""
  · obtain rfl : p = ⟨""⟩ := by cases p; exact congrArg Path.mk hempty
    have hjoin : (⟨""⟩ : Path).join ⟨c.text⟩ = ⟨c.text⟩ := by
      rw [join_of_relative _ hrelative]
      exact congrArg Path.mk String.empty_append
    rw [hjoin, components_eq, hrelative, pieces_of_not_mem hslash, steps_text hc]
    simp [hhere]
    rfl
  · rw [components_join hempty hrelative, steps_text hc]

/-- Steps that are joined to a path, one after the other, come behind its components. -/
theorem components_foldl_join (p : Path) {cs : List Component}
    (hcs : ∀ c ∈ cs, ∃ s, c ∈ steps s) :
    (cs.foldl (fun p c => p.join ⟨c.text⟩) p).components = p.components ++ cs := by
  induction cs generalizing p with
  | nil => simp
  | cons c rest ih =>
    obtain ⟨⟨s, hs⟩, hrest⟩ := List.forall_mem_cons.mp hcs
    rw [List.foldl_cons, ih (p.join ⟨c.text⟩) hrest, components_join_step p hs]
    simp

/-- Steps behind a root or behind nothing are the components of the path that they spell. -/
theorem components_ofComponents (pre : List Component) {cs : List Component}
    (hpre : pre = [] ∨ pre = [.root]) (hcs : ∀ c ∈ cs, ∃ s, c ∈ steps s) :
    (ofComponents (pre ++ cs)).components = pre ++ cs := by
  rw [ofComponents, List.foldl_append, components_foldl_join _ hcs]
  rcases hpre with rfl | rfl
  · rfl
  · exact congrArg (· ++ cs) (by decide)

/-- A location whose names are all names of files. -/
def IsNamed (at_ : Location) : Prop := ∀ name ∈ at_, IsName name.toList

instance (at_ : Location) : Decidable (IsNamed at_) :=
  inferInstanceAs (Decidable (∀ name ∈ at_, IsName name.toList))

/-- The names of a location are steps of some texts. -/
theorem IsNamed.steps {at_ : Location} (hat : IsNamed at_) :
    ∀ c ∈ at_.map Component.name, ∃ s, c ∈ steps s := by
  intro c hc
  obtain ⟨name, hname, rfl⟩ := List.mem_map.mp hc
  refine ⟨name.toList, ?_⟩
  rw [steps_of_isName (hat name hname), String.ofList_toList]
  exact List.mem_singleton_self _

/-- A location is repeated below a root by joining its names. -/
theorem below_eq_foldl (root : Path) (at_ : Location) :
    below root at_ = (at_.map Component.name).foldl (fun p c => p.join ⟨c.text⟩) root := by
  rw [List.foldl_map]
  rfl

/-- A location that is repeated below a root comes behind the components of the root. -/
theorem components_below (root : Path) {at_ : Location} (hat : IsNamed at_) :
    (below root at_).components = root.components ++ at_.map .name := by
  rw [below_eq_foldl, components_foldl_join root hat.steps]

/-! ## Two collapses in step -/

/-- What a key may begin with: the root, or the `..` that lead out of a relative path. -/
def IsFront (front : List Component) : Prop :=
  front = [.root] ∨ ∃ n, front = List.replicate n .up

/-- A step collapses the names behind a front as it collapses a location; it may only add to the
front, and not behind the root. -/
theorem keyStep_front {front : List Component} (hfront : IsFront front) (names : Location)
    {c : Component} (hc : c ≠ .root) :
    ∃ front', IsFront front' ∧ (front = [.root] → front' = [.root]) ∧
      keyStep (front ++ names.map .name) c = front' ++ (collapseStep names c).map .name := by
  cases c with
  | root => exact absurd rfl hc
  | here => exact ⟨front, hfront, id, rfl⟩
  | name text => exact ⟨front, hfront, id, by simp [keyStep, collapseStep]⟩
  | up =>
    rcases List.eq_nil_or_concat names with rfl | ⟨before, last, rfl⟩
    · rcases hfront with rfl | ⟨n, rfl⟩
      · exact ⟨[.root], .inl rfl, id, rfl⟩
      · refine ⟨List.replicate (n + 1) .up, .inr ⟨n + 1, rfl⟩, ?_, ?_⟩
        · intro heq
          cases n <;> cases heq
        · rw [List.replicate_succ']
          cases n with
          | zero => rfl
          | succ n => simp [keyStep, collapseStep, List.getLast?_replicate, List.head?_replicate]
    · refine ⟨front, hfront, id, ?_⟩
      simp [keyStep, collapseStep]

/-- Steps collapse the names behind a front as they collapse a location. -/
theorem foldl_keyStep_front {front : List Component} (hfront : IsFront front) (names : Location)
    {cs : List Component} (hcs : ∀ c ∈ cs, c ≠ .root) :
    ∃ front', IsFront front' ∧ (front = [.root] → front' = [.root]) ∧
      cs.foldl keyStep (front ++ names.map .name) =
        front' ++ (cs.foldl collapseStep names).map .name := by
  induction cs generalizing front names with
  | nil => exact ⟨front, hfront, id, rfl⟩
  | cons c rest ih =>
    obtain ⟨hc, hrest⟩ := List.forall_mem_cons.mp hcs
    obtain ⟨front₁, hfront₁, hroot₁, hstep⟩ := keyStep_front hfront names hc
    obtain ⟨front₂, hfront₂, hroot₂, hfold⟩ := ih hfront₁ (collapseStep names c) hrest
    refine ⟨front₂, hfront₂, fun hroot => hroot₂ (hroot₁ hroot), ?_⟩
    rw [List.foldl_cons, hstep, hfold]
    rfl

/-- The components by which a path is known: the root, a `.` or nothing, and then names of the
working location and the steps of the path. -/
theorem lexicalComponents_eq (cwd : Option Location) (p : Path) :
    ∃ start names, (start = [.root] ∨ start = [.here] ∨ start = []) ∧
      ((p.absolute? cwd).isSome → start = [.root]) ∧ names ⊆ cwd.getD [] ∧
      p.lexicalComponents cwd = start ++ (names.map .name ++ steps p.text.toList) := by
  unfold lexicalComponents absolute?
  split
  · next hempty =>
    have hnone : p.components = [] ++ ([].map .name ++ steps p.text.toList) := by
      obtain rfl : p = ⟨""⟩ := by cases p; exact congrArg Path.mk (String.isEmpty_iff.mp hempty)
      decide
    exact ⟨[], [], .inr (.inr rfl), nofun, List.nil_subset _, hnone⟩
  · split
    · next habsolute =>
      refine ⟨[.root], [], .inl rfl, fun _ => rfl, List.nil_subset _, ?_⟩
      rw [Option.getD_some, components_eq, if_pos habsolute]
      rfl
    · next hrelative =>
      cases cwd with
      | none =>
        refine ⟨_, [], ?_, nofun, List.nil_subset _, components_eq p⟩
        rw [if_neg hrelative]
        split
        · exact .inr (.inl rfl)
        · exact .inr (.inr rfl)
      | some names =>
        refine ⟨[.root], names, .inl rfl, fun _ => rfl, fun _ h => h, ?_⟩
        rw [Option.map_some, Option.getD_some, components_filter, if_neg hrelative]
        rfl

/-- The key has the collapsed names of a path behind its front, which is the root for a path that
has an absolute one. -/
theorem foldl_keyStep_lexicalComponents (cwd : Option Location) (p : Path) :
    ∃ front, IsFront front ∧ ((p.absolute? cwd).isSome → front = [.root]) ∧
      (p.lexicalComponents cwd).foldl keyStep [] =
        front ++ (collapse (p.lexicalComponents cwd)).map .name := by
  obtain ⟨start, names, hstart, hroot, -, hcs⟩ := lexicalComponents_eq cwd p
  have hnotRoot : ∀ c ∈ names.map Component.name ++ steps p.text.toList, c ≠ .root := by
    intro c hc
    rcases List.mem_append.mp hc with hc | hc
    · obtain ⟨name, -, rfl⟩ := List.mem_map.mp hc
      exact nofun
    · exact fun heq => root_not_mem_steps _ (heq ▸ hc)
  -- What the components start with leaves the front that both collapses go on from.
  have hbegin : IsFront (start.foldl keyStep []) ∧
      (start = [.root] → start.foldl keyStep [] = [.root]) ∧
      ∀ cs, collapse (start ++ cs) = collapse cs := by
    rcases hstart with rfl | rfl | rfl
    · exact ⟨.inl rfl, fun _ => rfl, fun _ => rfl⟩
    · exact ⟨.inr ⟨0, rfl⟩, nofun, fun _ => rfl⟩
    · exact ⟨.inr ⟨0, rfl⟩, nofun, fun _ => rfl⟩
  obtain ⟨hfront, hkeeps, hcollapse⟩ := hbegin
  obtain ⟨front, hfront', hkeeps', hfold⟩ := foldl_keyStep_front hfront [] hnotRoot
  refine ⟨front, hfront', fun habsolute => hkeeps' (hkeeps (hroot habsolute)), ?_⟩
  rw [List.map_nil, List.append_nil] at hfold
  rw [hcs, hcollapse, List.foldl_append, hfold]
  rfl

/-- A path collapses to names of files, seen from a location of such names. -/
theorem isNamed_collapse {cwd : Option Location} (hcwd : IsNamed (cwd.getD [])) (p : Path) :
    IsNamed (collapse (p.lexicalComponents cwd)) := by
  obtain ⟨start, names, hstart, -, hnames, hcs⟩ := lexicalComponents_eq cwd p
  refine forall_foldl_collapseStep (fun text htext => ?_) (List.forall_mem_nil _)
  rw [hcs, List.mem_append, List.mem_append] at htext
  rcases htext with hstart' | hname | hstep
  · rcases hstart with rfl | rfl | rfl <;> simp at hstart'
  · obtain ⟨name, hmem, heq⟩ := List.mem_map.mp hname
    cases heq
    exact hcwd _ (hnames hmem)
  · exact isName_of_mem_steps hstep

/-! ## Where a key is mirrored -/

/-- Whether a component is the name of a file. -/
def Component.isName : Component → Bool
  | .name _ => true
  | _ => false

/-- The components of a key are its front and the collapsed names of the path. -/
theorem components_lexicalKey {cwd : Option Location} (hcwd : IsNamed (cwd.getD [])) (p : Path) :
    ∃ front, IsFront front ∧ (p.lexicalKey cwd).components =
      front ++ (collapse (p.lexicalComponents cwd)).map .name := by
  obtain ⟨front, hfront, -, hkey⟩ := foldl_keyStep_lexicalComponents cwd p
  have hnames := (isNamed_collapse hcwd p).steps
  refine ⟨front, hfront, ?_⟩
  rw [lexicalKey, collapsed, hkey]
  rcases hfront with rfl | ⟨n, rfl⟩
  · exact components_ofComponents _ (.inr rfl) hnames
  · refine components_ofComponents [] (.inl rfl) fun c hc => ?_
    rcases List.mem_append.mp hc with hc | hc
    · rw [List.eq_of_mem_replicate hc]
      exact ⟨['.', '.'], by decide⟩
    · exact hnames c hc

/-- The key of a path that has an absolute one is the path of its collapsed location. -/
theorem lexicalKey_of_absolute {cwd : Option Location} {p : Path}
    (hp : (p.absolute? cwd).isSome) :
    p.lexicalKey cwd = (collapse (p.lexicalComponents cwd)).path := by
  obtain ⟨front, -, hroot, hkey⟩ := foldl_keyStep_lexicalComponents cwd p
  rw [lexicalKey, collapsed, hkey, hroot hp]
  rfl

/-- The components of the path of a location are the root and its names. -/
theorem components_path {at_ : Location} (hat : IsNamed at_) :
    at_.path.components = .root :: at_.map .name :=
  components_ofComponents [.root] (.inr rfl) hat.steps

/-- Locations are told apart by their components. -/
theorem map_name_inj {a b : Location} : a.map Component.name = b.map .name ↔ a = b :=
  List.map_inj_right fun _ _ heq => Component.name.inj heq

/-- A location of names of files is told from its path. -/
theorem path_inj {a b : Location} (ha : IsNamed a) (hb : IsNamed b) : a.path = b.path ↔ a = b := by
  refine ⟨fun heq => ?_, congrArg Location.path⟩
  have hcs := congrArg components heq
  rw [components_path ha, components_path hb] at hcs
  exact map_name_inj.mp (List.cons.inj hcs).2

section Mirroring

variable {cwd : Option Location} {p q : Path}

/-- A file is relocated to its collapsed names below the root. -/
theorem components_relocate (root : Path) (hcwd : IsNamed (cwd.getD [])) (p : Path) :
    (relocate root cwd p).components =
      root.components ++ (collapse (p.lexicalComponents cwd)).map .name :=
  components_below root (isNamed_collapse hcwd p)

/-- The names in a key are the collapsed names of the path. -/
theorem filter_isName_lexicalKey (hcwd : IsNamed (cwd.getD [])) (p : Path) :
    (p.lexicalKey cwd).components.filter Component.isName =
      (collapse (p.lexicalComponents cwd)).map .name := by
  obtain ⟨front, hfront, hcs⟩ := components_lexicalKey hcwd p
  have hnone : front.filter Component.isName = [] := by
    rcases hfront with rfl | ⟨n, rfl⟩
    · rfl
    · exact List.filter_replicate_of_neg nofun
  have hall : ((collapse (p.lexicalComponents cwd)).map Component.name).filter Component.isName =
      (collapse (p.lexicalComponents cwd)).map .name :=
    List.filter_eq_self.mpr (List.forall_mem_map.mpr fun _ _ => rfl)
  rw [hcs, List.filter_append, hnone, hall, List.nil_append]

/-- The components of the key are the root and the location that the path collapses to. -/
theorem components_lexicalKey_of_absolute (hcwd : IsNamed (cwd.getD []))
    (hp : (p.absolute? cwd).isSome) : (p.lexicalKey cwd).components =
      .root :: (collapse (p.lexicalComponents cwd)).map .name := by
  rw [lexicalKey_of_absolute hp]
  exact components_path (isNamed_collapse hcwd p)

/-- Paths that have an absolute one have one key just when they collapse to one location. -/
theorem lexicalKey_inj (hcwd : IsNamed (cwd.getD [])) (hp : (p.absolute? cwd).isSome)
    (hq : (q.absolute? cwd).isSome) : p.lexicalKey cwd = q.lexicalKey cwd ↔
      collapse (p.lexicalComponents cwd) = collapse (q.lexicalComponents cwd) := by
  rw [lexicalKey_of_absolute hp, lexicalKey_of_absolute hq]
  exact path_inj (isNamed_collapse hcwd p) (isNamed_collapse hcwd q)

/-- The components of two relocated files tell whether they collapse to one location. -/
theorem components_relocate_inj (root : Path) (hcwd : IsNamed (cwd.getD [])) (p q : Path) :
    (relocate root cwd p).components = (relocate root cwd q).components ↔
      collapse (p.lexicalComponents cwd) = collapse (q.lexicalComponents cwd) := by
  rw [components_relocate root hcwd, components_relocate root hcwd, List.append_right_inj,
    map_name_inj]

end Mirroring

/-- A file is relocated under the names of its key. Where it has an absolute path, these are all of
the components behind the root, and two files come to one place just when they have one key. -/
theorem relocate_repeats_key (root : Path) {cwd : Option Location}
    (hcwd : IsNamed (cwd.getD [])) :
    (∀ p, (relocate root cwd p).components =
        root.components ++ (p.lexicalKey cwd).components.filter Component.isName ∧
      .up ∉ (relocate root cwd p).components.drop root.components.length) ∧
    (∀ p, (p.absolute? cwd).isSome →
      (p.lexicalKey cwd).components.head? = some .root ∧
      relocate root cwd p =
        (p.lexicalKey cwd).components.tail.foldl (fun at_ c => at_.join ⟨c.text⟩) root ∧
      (relocate root cwd p).components =
        root.components ++ (p.lexicalKey cwd).components.tail) ∧
    ∀ p q, (p.absolute? cwd).isSome → (q.absolute? cwd).isSome →
      (relocate root cwd p = relocate root cwd q ↔ p.lexicalKey cwd = q.lexicalKey cwd) ∧
      ((relocate root cwd p).components = (relocate root cwd q).components ↔
        p.lexicalKey cwd = q.lexicalKey cwd) := by
  refine ⟨fun p => ⟨?_, ?_⟩, fun p hp => ⟨?_, ?_, ?_⟩, fun p q hp hq => ?_⟩
  · rw [components_relocate root hcwd, filter_isName_lexicalKey hcwd]
  · rw [components_relocate root hcwd, List.drop_left]
    intro hup
    obtain ⟨name, -, heq⟩ := List.mem_map.mp hup
    cases heq
  · rw [components_lexicalKey_of_absolute hcwd hp, List.head?_cons]
  · rw [components_lexicalKey_of_absolute hcwd hp, List.tail_cons, ← below_eq_foldl]
    rfl
  · rw [components_relocate root hcwd, components_lexicalKey_of_absolute hcwd hp, List.tail_cons]
  · rw [lexicalKey_inj hcwd hp hq, components_relocate_inj root hcwd]
    refine ⟨⟨fun heq => ?_, fun heq => ?_⟩, Iff.rfl⟩
    · exact (components_relocate_inj root hcwd p q).mp (congrArg components heq)
    · rw [relocate, relocate, heq]

/-- Seen from a home directory, two spellings of a file below it are relocated to one place under a
relative root as well, and a third file is not. -/
theorem relocate_repeats_key_from_home :
    let home : Option Location := some ["home", "me"]
    relocate ⟨"c"⟩ home ⟨"x/../../me//./a"⟩ = ⟨"c/home/me/a"⟩ ∧
      relocate ⟨"c"⟩ home ⟨"/home/me/a"⟩ = ⟨"c/home/me/a"⟩ ∧
      (relocate ⟨"c"⟩ home ⟨"../../../a"⟩).components = [.name "c", .name "a"] ∧
      relocate ⟨"c"⟩ home ⟨"../../../a"⟩ ≠ relocate ⟨"c"⟩ home ⟨"a"⟩ := by
  intro home
  have hhome : IsNamed (home.getD []) := by decide
  obtain ⟨-, habsolute, hsame⟩ := relocate_repeats_key ⟨"c"⟩ hhome
  obtain ⟨-, hplace, -⟩ := habsolute ⟨"/home/me/a"⟩ (by decide)
  have hmeet := (hsame ⟨"x/../../me//./a"⟩ ⟨"/home/me/a"⟩ (by decide) (by decide)).1
  refine ⟨(hmeet.mpr (by decide)).trans (hplace.trans (by decide)),
    hplace.trans (by decide), ?_, ?_⟩
  · exact ((habsolute ⟨"../../../a"⟩ (by decide)).2.2).trans (by decide)
  · exact (not_congr (hsame ⟨"../../../a"⟩ ⟨"a"⟩ (by decide) (by decide)).1).mpr (by decide)

/-- In a working directory that has been removed, two relative paths with different keys are
relocated to one place: the `..` that is left in the key of the second one is not repeated. -/
theorem relocate_meets :
    let fs : Files := { entries := [], removed := [["w"]] }
    let cwd := fs.workingLocation? (["w"] : Location)
    fs.identity (["w"] : Location) ⟨"a"⟩ = ⟨"a"⟩ ∧
      fs.identity (["w"] : Location) ⟨"x/../../a"⟩ = ⟨"../a"⟩ ∧
      ¬ (relocate ⟨"/c"⟩ cwd ⟨"a"⟩ = relocate ⟨"/c"⟩ cwd ⟨"x/../../a"⟩ ↔
        (⟨"a"⟩ : Path).lexicalKey cwd = (⟨"x/../../a"⟩ : Path).lexicalKey cwd) ∧
      ¬ (relocate ⟨"/c"⟩ cwd ⟨"x/../../a"⟩).components = (⟨"/c"⟩ : Path).components ++
        ((⟨"x/../../a"⟩ : Path).lexicalKey cwd).components := by
  decide

end CxxScript.Path

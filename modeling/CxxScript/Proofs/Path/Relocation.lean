import CxxScript.Proofs.Path.Split

/-!
# Where a path is repeated below a root

A relocated file stands at its lexical location repeated below a root. So a name that begins as some
text begins is relocated to where that text is mirrored, whatever follows: `relocate_append`.
-/

set_option autoImplicit false

namespace CxxScript.Path

/-! ## The two parts of a text -/

/-- What leads to the last piece of a text. -/
def leadOf (s : List Char) : List Char := (s.reverse.dropWhile (· ≠ '/')).reverse

/-- The last piece of a text. -/
def lastOf (s : List Char) : List Char := (s.reverse.takeWhile (· ≠ '/')).reverse

/-- The two parts make up the text. -/
theorem leadOf_append_lastOf (s : List Char) : leadOf s ++ lastOf s = s := by
  rw [leadOf, lastOf, ← List.reverse_append, List.takeWhile_append_dropWhile, List.reverse_reverse]

/-- There is no slash in the last piece. -/
theorem not_mem_lastOf (s : List Char) : '/' ∉ lastOf s := by
  rw [lastOf, List.mem_reverse]
  intro hmem
  have hall := List.all_takeWhile (p := (· ≠ '/')) (l := s.reverse)
  rw [List.all_eq_true] at hall
  simpa using hall _ hmem

/-- What leads to the last piece ends with a slash, if there is anything. -/
theorem isLead_leadOf (s : List Char) : IsLead (leadOf s) := by
  rw [leadOf]
  cases hd : s.reverse.dropWhile (· ≠ '/') with
  | nil => exact .inl rfl
  | cons c rest =>
    have hc : c = '/' := by
      have hhead := List.head?_dropWhile_not (· ≠ '/') s.reverse
      rw [hd] at hhead
      simpa using hhead
    exact .inr ⟨rest.reverse, by rw [hc, List.reverse_cons]⟩

/-! ## Lexical locations -/

/-- The location that a lead collapses to, seen from a working location. -/
def leadLocation (cwd : Option Location) (d : List Char) : Location :=
  (steps d).foldl collapseStep (if d.head? = some '/' then [] else cwd.getD [])

/-- Collapsing names gives the names. -/
theorem foldl_collapseStep_names (names at_ : Location) :
    (names.map Component.name).foldl collapseStep at_ = at_ ++ names := by
  induction names generalizing at_ with
  | nil => exact (List.append_nil _).symm
  | cons name rest ih =>
    rw [List.map_cons, List.foldl_cons, ih, collapseStep, List.append_assoc]
    rfl

/-- What a location and some components have of their names is kept when the one is collapsed behind
the other: no name is made up. -/
theorem forall_foldl_collapseStep {P : String → Prop} {cs : List Component}
    (hcs : ∀ text, .name text ∈ cs → P text) {at_ : Location} (hat : ∀ name ∈ at_, P name) :
    ∀ name ∈ cs.foldl collapseStep at_, P name := by
  induction cs generalizing at_ with
  | nil => exact hat
  | cons c rest ih =>
    refine ih (fun text htext => hcs text (List.mem_cons_of_mem _ htext)) ?_
    cases c with
    | root => exact hat
    | here => exact hat
    | up => exact fun name hname => hat name (List.dropLast_subset _ hname)
    | name text =>
      intro name hname
      rcases List.mem_append.mp hname with hname | hname
      · exact hat name hname
      · rw [List.mem_singleton.mp hname]
        exact hcs text List.mem_cons_self

/-- A path collapses from the root or from the working location as its steps do. -/
theorem collapse_lexicalComponents_eq {p : Path} (hp : p.text ≠ "") (cwd : Option Location) :
    collapse (p.lexicalComponents cwd) =
      (steps p.text.toList).foldl collapseStep (if p.isAbsolute then [] else cwd.getD []) := by
  have hempty : p.text.isEmpty = false := String.isEmpty_eq_false_iff.mpr hp
  have hnames : ∀ names : Location,
      (names.map Component.name).foldl collapseStep (collapseStep [] .root) = names := by
    intro names
    exact (foldl_collapseStep_names names []).trans (List.nil_append names)
  rw [collapse, lexicalComponents, absolute?, hempty, if_neg Bool.false_ne_true,
    components_filter, components_eq]
  cases habsolute : p.isAbsolute with
  | true => rfl
  | false =>
    cases cwd with
    | none =>
      simp only [Bool.false_eq_true, if_false, Option.map_none, Option.getD_none,
        List.foldl_append]
      split <;> rfl
    | some names =>
      simp only [Bool.false_eq_true, if_false, Option.map_some, Option.getD_some,
        List.nil_append, List.foldl_append, List.foldl_cons, hnames]

/-- A path ends where its lead does, with one more name. -/
theorem collapse_lexicalComponents {p : Path} {d n : List Char} (h : p.text.toList = d ++ n)
    (hd : IsLead d) (hn : IsName n) (cwd : Option Location) :
    collapse (p.lexicalComponents cwd) = leadLocation cwd d ++ [String.ofList n] := by
  have hempty : p.text ≠ "" := by
    intro heq
    rw [heq] at h
    exact hn.ne_nil (List.append_eq_nil_iff.mp h.symm).2
  have habsolute : p.isAbsolute = decide (d.head? = some '/') := by
    rw [isAbsolute, h]
    rcases hd with rfl | ⟨d', rfl⟩
    · obtain ⟨c, rest, rfl⟩ := List.exists_cons_of_ne_nil hn.ne_nil
      have hc : c ≠ '/' := fun heq => hn.noSlash (heq ▸ List.mem_cons_self)
      simpa using hc
    · rw [List.append_assoc, Bool.eq_iff_iff, beq_iff_eq, decide_eq_true_eq]
      cases d' <;> simp
  have hsteps : steps p.text.toList = steps d ++ [.name (String.ofList n)] := by
    rw [h, steps_append hd, steps_of_isName hn]
  rw [collapse_lexicalComponents_eq hempty, hsteps, List.foldl_append, leadLocation, habsolute]
  simp only [decide_eq_true_eq]
  rfl

/-! ## Mirroring -/

/-- The path that repeats a location below a root. -/
def below (root : Path) (at_ : Location) : Path := at_.foldl (fun p name => p.join ⟨name⟩) root

/-- A text as it is repeated below a root: its lead collapsed, its last piece as it is. -/
def mirror (root : Path) (cwd : Option Location) (t : String) : String :=
  (below root (leadLocation cwd (leadOf t.toList))).prefixText ++ String.ofList (lastOf t.toList)

/-- A name is relocated to where the text that it begins with is mirrored. -/
theorem relocate_append (root : Path) (cwd : Option Location) {t ending : String}
    (hn : IsName (lastOf t.toList ++ ending.toList)) :
    relocate root cwd ⟨t ++ ending⟩ = ⟨mirror root cwd t ++ ending⟩ := by
  have hsplit : (⟨t ++ ending⟩ : Path).text.toList =
      leadOf t.toList ++ (lastOf t.toList ++ ending.toList) := by
    rw [← List.append_assoc, leadOf_append_lastOf]
    exact String.toList_append
  have hrelative : (⟨String.ofList (lastOf t.toList ++ ending.toList)⟩ : Path).isAbsolute = false :=
    isAbsolute_of_not_mem (by rw [String.toList_ofList]; exact hn.noSlash)
  rw [relocate, collapse_lexicalComponents hsplit (isLead_leadOf _) hn, List.foldl_append,
    List.foldl_cons, List.foldl_nil, join_of_relative _ hrelative, mirror, String.append_assoc,
    String.ofList_append, String.ofList_toList]
  rfl

/-- A path that is joined to a root with a text has a text. -/
theorem text_join_ne {root : Path} (hroot : root.text ≠ "") (p : Path) :
    (root.join p).text ≠ "" := by
  cases habsolute : p.isAbsolute with
  | true =>
    have hjoin : root.join p = p := if_pos habsolute
    rw [hjoin]
    intro htext
    rw [isAbsolute, htext] at habsolute
    cases habsolute
  | false =>
    rw [join_of_relative root habsolute]
    intro htext
    have hchars := congrArg String.toList htext
    rw [String.toList_append] at hchars
    have hprefix := (List.append_eq_nil_iff.mp hchars).1
    rw [prefixText] at hprefix
    split at hprefix
    · exact hroot (String.toList_inj.mp hprefix)
    · rw [String.toList_append] at hprefix
      cases (List.append_eq_nil_iff.mp hprefix).2

/-- A root with a text keeps one when a location is repeated below it. -/
theorem text_below_ne {root : Path} (hroot : root.text ≠ "") (at_ : Location) :
    (below root at_).text ≠ "" := by
  induction at_ generalizing root with
  | nil => exact hroot
  | cons name rest ih => exact ih (text_join_ne hroot _)

/-- There is a slash in what is repeated below a root. -/
theorem mem_mirror {root : Path} (hroot : root.text ≠ "") (cwd : Option Location) (t : String) :
    '/' ∈ (mirror root cwd t).toList := by
  rw [mirror, String.toList_append]
  refine List.mem_append_left _ ?_
  have hne := text_below_ne hroot (leadLocation cwd (leadOf t.toList))
  rcases isLead_prefixText (below root (leadLocation cwd (leadOf t.toList))) with hnil | ⟨d, hd⟩
  · exfalso
    rw [prefixText] at hnil
    split at hnil
    · exact hne (String.toList_inj.mp hnil)
    · rw [String.toList_append] at hnil
      cases (List.append_eq_nil_iff.mp hnil).2
  · rw [hd]
    exact List.mem_append_right _ List.mem_cons_self

/-- A location whose names are names of files. -/
def IsPlace (at_ : Location) : Prop := ∀ name ∈ at_, name.toList ≠ [] ∧ '/' ∉ name.toList

/-- A lead collapses to a place, seen from a place. -/
theorem isPlace_leadLocation {cwd : Option Location} (hcwd : IsPlace (cwd.getD []))
    (d : List Char) : IsPlace (leadLocation cwd d) := by
  refine forall_foldl_collapseStep (fun text htext => ?_) ?_
  · have hname := isName_of_mem_steps htext
    exact ⟨hname.ne_nil, hname.noSlash⟩
  · split
    · exact List.forall_mem_nil _
    · exact hcwd

end CxxScript.Path

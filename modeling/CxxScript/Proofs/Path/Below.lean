import CxxScript.Proofs.Path.Relocation

/-!
# Paths below a root

What is joined to a path stands below it: the components of the path come first,
`prefix_components_join`. So a file that is relocated stands below the root, and under its own name,
`lastOf_mirror`.
-/

set_option autoImplicit false

namespace CxxScript.Path

/-- What is joined to a path with a text comes behind its components, step by step. -/
theorem components_join {p q : Path} (hp : p.text ≠ "") (hq : q.isAbsolute = false) :
    (p.join q).components = p.components ++ steps q.text.toList := by
  have hne : p.text.toList ≠ [] := fun hnil => hp (String.toList_eq_nil_iff.mp hnil)
  have htext : (p.join q).text.toList = p.prefixText.toList ++ q.text.toList := by
    rw [join_of_relative p hq]
    exact String.toList_append
  -- Up to a slash that may stand at the end of the path already, its pieces come first.
  obtain ⟨d, hd, hfront⟩ : ∃ d, (p.text.toList = d ∨ p.text.toList = d ++ ['/']) ∧
      p.prefixText.toList = d ++ ['/'] := by
    rw [prefixText]
    split
    · next hlast =>
      rw [Bool.or_eq_true, String.isEmpty_iff] at hlast
      obtain ⟨d, hd⟩ := List.getLast?_eq_some_iff.mp (eq_of_beq (hlast.resolve_left hp))
      exact ⟨d, .inr hd, hd⟩
    · exact ⟨p.text.toList, .inl rfl, String.toList_append⟩
  have hhead : (p.join q).text.toList.head? = p.text.toList.head? := by
    rw [htext, hfront]
    rcases hd with hd | hd
    · obtain ⟨c, rest, hc⟩ := List.exists_cons_of_ne_nil hne
      rw [← hd, hc]
      rfl
    · rw [hd]
      cases d <;> rfl
  have hpiece : (pieces (p.join q).text.toList).head? = (pieces p.text.toList).head? := by
    obtain ⟨piece, more, hmore⟩ := List.exists_cons_of_ne_nil (pieces_ne_nil d)
    rw [htext, hfront, List.append_assoc, List.singleton_append, pieces_append_slash, hmore]
    rcases hd with hd | hd
    · rw [hd, hmore]
      rfl
    · rw [hd, pieces_append_slash, hmore]
      rfl
  have hsteps : steps (p.join q).text.toList = steps p.text.toList ++ steps q.text.toList := by
    have hslash : steps p.prefixText.toList = steps p.text.toList := by
      rw [hfront]
      rcases hd with hd | hd
      · rw [hd]
        exact steps_append_slash d
      · rw [hd]
    rw [htext, steps_append (isLead_prefixText p), hslash]
  rw [components_eq, components_eq, isAbsolute, isAbsolute, hhead, hpiece, hsteps,
    ← List.append_assoc]

/-- What is joined to a path begins with its components. -/
theorem prefix_components_join (p : Path) {q : Path} (hq : q.isAbsolute = false) :
    p.components <+: (p.join q).components := by
  by_cases hempty : p.text = ""
  · obtain rfl : p = ⟨""⟩ := by cases p; exact congrArg Path.mk hempty
    exact List.nil_prefix
  · rw [components_join hempty hq]
    exact List.prefix_append _ _

/-- What is repeated below a root begins with its components. -/
theorem prefix_components_below (root : Path) {at_ : Location} (hat : IsPlace at_) :
    root.components <+: (below root at_).components := by
  induction at_ generalizing root with
  | nil => exact List.prefix_rfl
  | cons name rest ih =>
    have hname : (⟨name⟩ : Path).isAbsolute = false :=
      isAbsolute_of_not_mem (q := ⟨name⟩) (hat name List.mem_cons_self).2
    exact (prefix_components_join root hname).trans
      (ih (root.join ⟨name⟩) fun x hx => hat x (List.mem_cons_of_mem _ hx))

/-- A file whose path ends with a name is relocated to a place below the root. -/
theorem prefix_components_relocate (root : Path) {cwd : Option Location}
    (hcwd : IsPlace (cwd.getD [])) {p : Path} {d n : List Char} (h : p.text.toList = d ++ n)
    (hd : IsLead d) (hn : IsName n) : root.components <+: (relocate root cwd p).components := by
  have hplace : IsPlace (leadLocation cwd d ++ [String.ofList n]) := by
    intro name hname
    rcases List.mem_append.mp hname with hname | hname
    · exact isPlace_leadLocation hcwd d name hname
    · rw [List.mem_singleton.mp hname, String.toList_ofList]
      exact ⟨hn.ne_nil, hn.noSlash⟩
  rw [relocate, collapse_lexicalComponents h hd hn]
  exact prefix_components_below root hplace

/-- The last piece of a text is what stands behind a lead. -/
theorem lastOf_append {d n : List Char} (hd : IsLead d) (hn : '/' ∉ n) : lastOf (d ++ n) = n := by
  have hpos : ∀ c ∈ n.reverse, decide (c ≠ '/') = true := by
    intro c hc
    rw [decide_eq_true_eq]
    rintro rfl
    exact hn (List.mem_reverse.mp hc)
  have hnone : d.reverse.takeWhile (· ≠ '/') = [] := by
    rcases hd with rfl | ⟨d', rfl⟩
    · rfl
    · rw [List.reverse_append]
      rfl
  rw [lastOf, List.reverse_append, List.takeWhile_append_of_pos hpos, hnone, List.append_nil,
    List.reverse_reverse]

/-- A text is mirrored with its last piece. -/
theorem lastOf_mirror (root : Path) (cwd : Option Location) (t : String) :
    lastOf (mirror root cwd t).toList = lastOf t.toList := by
  rw [mirror, String.toList_append, String.toList_ofList]
  exact lastOf_append (isLead_prefixText _) (not_mem_lastOf _)

end CxxScript.Path

import CxxScript.Proofs.Path.Collapsing

/-!
# What normalizing keeps

A path that is normalized has the steps that it had, with nothing between them that says nothing:
`pieces_normalize`. It begins at the root just when it did, `isAbsolute_normalize`, and means the
same absolute components, `absolute?_normalize`.
-/

set_option autoImplicit false

namespace CxxScript.Path

/-- A character other than a slash is in a text just when it is in one of its pieces. -/
theorem exists_mem_pieces {x : Char} (hx : x ≠ '/') (s : List Char) :
    (∃ n ∈ pieces s, x ∈ n) ↔ x ∈ s := by
  induction s with
  | nil => simp [pieces]
  | cons c rest ih =>
    rw [pieces, List.mem_cons, ← ih]
    split
    · next hc =>
      obtain rfl : c = '/' := eq_of_beq hc
      simp [hx]
    · cases hp : pieces rest with
      | nil => exact absurd hp (pieces_ne_nil rest)
      | cons piece more => simp [or_assoc]

/-- The text of the component of a piece is that piece. -/
theorem text_of_ofPiece? {n : List Char} {c : Component} (h : Component.ofPiece? n = some c) :
    c.text.toList = n := by
  unfold Component.ofPiece? at h
  split at h
  · cases h
  · split at h
    · next hup =>
      cases h
      exact hup.symm
    · cases h
      exact String.toList_ofList

/-- The text of a step is one of the pieces. -/
theorem text_mem_pieces {s : List Char} {c : Component} (hc : c ∈ steps s) :
    c.text.toList ∈ pieces s := by
  obtain ⟨n, hn, hpiece⟩ := List.mem_filterMap.mp hc
  rw [text_of_ofPiece? hpiece]
  exact hn

/-- A path begins at the root just when this is its first component. -/
theorem isAbsolute_iff (p : Path) : p.isAbsolute = true ↔ p.components.head? = some .root := by
  rw [components_eq]
  cases p.isAbsolute with
  | true => simp
  | false =>
    simp only [Bool.false_eq_true, if_false, false_iff]
    split
    · simp
    · exact fun hhead => root_not_mem_steps _ (List.mem_of_head? hhead)

/-! ## Spelling steps -/

/-- Steps that are joined to a path that ends with a piece are the pieces behind its own. -/
theorem pieces_foldl_join {p : Path} {d n : List Char} (h : p.text.toList = d ++ n) (hnil : n ≠ [])
    (hslash : '/' ∉ n) {cs : List Component} (hcs : ∀ c ∈ cs, ∃ s, c ∈ steps s) :
    pieces (cs.foldl (fun p c => p.join ⟨c.text⟩) p).text.toList =
      pieces p.text.toList ++ cs.map fun c => c.text.toList := by
  induction cs generalizing p d n with
  | nil => simp
  | cons c rest ih =>
    obtain ⟨⟨s, hs⟩, hrest⟩ := List.forall_mem_cons.mp hcs
    obtain ⟨hcnil, -, hcslash⟩ := text_of_mem_steps hs
    have hjoin : (p.join ⟨c.text⟩).text.toList = (p.text.toList ++ ['/']) ++ c.text.toList := by
      rw [join_of_relative p (isAbsolute_of_not_mem (q := ⟨c.text⟩) hcslash),
        prefixText_of_piece h hnil hslash]
      simp
    rw [List.foldl_cons, ih hjoin hcnil hcslash hrest, hjoin, List.append_assoc,
      List.singleton_append, pieces_append_slash, pieces_of_not_mem hcslash]
    simp

/-- A path that is spelled by steps has these as its pieces, behind empty ones. -/
theorem pieces_ofComponents {pre cs : List Component} (hpre : pre = [] ∨ pre = [.root])
    (hcs : ∀ c ∈ cs, ∃ s, c ∈ steps s) :
    ∃ front, (∀ n ∈ front, n = []) ∧
      pieces (ofComponents (pre ++ cs)).text.toList = front ++ cs.map fun c => c.text.toList := by
  cases cs with
  | nil =>
    rcases hpre with rfl | rfl
    · exact ⟨[[]], by simp, by decide⟩
    · exact ⟨[[], []], by simp, by decide⟩
  | cons c rest =>
    obtain ⟨⟨s, hs⟩, hrest⟩ := List.forall_mem_cons.mp hcs
    obtain ⟨hnil, -, hslash⟩ := text_of_mem_steps hs
    have hrelative : (⟨c.text⟩ : Path).isAbsolute = false := isAbsolute_of_not_mem hslash
    -- What the first step is joined to is no path that ends with a piece.
    obtain ⟨d, hd, htext⟩ : ∃ d, (d = [] ∨ d = ['/']) ∧
        (ofComponents (pre ++ [c])).text.toList = d ++ c.text.toList := by
      rcases hpre with rfl | rfl
      · refine ⟨[], .inl rfl, ?_⟩
        rw [ofComponents_concat, join_of_relative _ hrelative]
        exact String.toList_append
      · refine ⟨['/'], .inr rfl, ?_⟩
        rw [ofComponents_concat, join_of_relative _ hrelative]
        exact String.toList_append
    have hfold : ofComponents (pre ++ c :: rest) =
        rest.foldl (fun p c => p.join ⟨c.text⟩) (ofComponents (pre ++ [c])) := by
      rw [List.append_cons, ofComponents, List.foldl_append]
      rfl
    rw [hfold, pieces_foldl_join htext hnil hslash hrest, htext, List.map_cons]
    rcases hd with rfl | rfl
    · exact ⟨[], by simp, by rw [List.nil_append, pieces_of_not_mem hslash]; rfl⟩
    · refine ⟨[[]], by simp, ?_⟩
      rw [List.singleton_append, ← List.nil_append ('/' :: _), pieces_append_slash,
        pieces_of_not_mem hslash]
      rfl

/-! ## Normalizing -/

variable {p : Path}

/-- A normalized path is a `.` where there is no step, and else what the steps spell. -/
theorem normalize_eq (p : Path) : ∃ pre, (pre = [] ∨ pre = [.root]) ∧
    (p.isAbsolute = true ↔ pre = [.root]) ∧
    p.normalize = if pre ++ steps p.text.toList = [] then ⟨"."⟩
      else ofComponents (pre ++ steps p.text.toList) := by
  refine ⟨if p.isAbsolute then [.root] else [], ?_, ?_, ?_⟩
  · split
    · exact .inr rfl
    · exact .inl rfl
  · split
    · next habsolute => exact ⟨fun _ => rfl, fun _ => habsolute⟩
    · next hrelative => exact ⟨fun habsolute => absurd habsolute hrelative, nofun⟩
  · rw [normalize, components_filter]
    split
    · next hnil => rw [if_pos hnil]
    · next hne => rw [if_neg hne]

/-- The pieces of a normalized path are its steps, behind pieces that say nothing. -/
theorem pieces_normalize (p : Path) : ∃ front, (∀ n ∈ front, n = [] ∨ n = ['.']) ∧
    pieces p.normalize.text.toList =
      front ++ (steps p.text.toList).map fun c => c.text.toList := by
  obtain ⟨pre, hpre, -, hnormalize⟩ := normalize_eq p
  rw [hnormalize]
  split
  · next hnil =>
    rw [(List.append_eq_nil_iff.mp hnil).2]
    exact ⟨[['.']], by simp, by decide⟩
  · obtain ⟨front, hfront, hpieces⟩ := pieces_ofComponents hpre fun c hc => ⟨_, hc⟩
    exact ⟨front, fun n hn => .inl (hfront n hn), hpieces⟩

/-- A normalized path is absolute when the path is. -/
theorem isAbsolute_normalize (p : Path) : p.normalize.isAbsolute = p.isAbsolute := by
  obtain ⟨pre, hpre, habsolute, hnormalize⟩ := normalize_eq p
  rw [Bool.eq_iff_iff, habsolute, hnormalize]
  split
  · next hnil =>
    rw [(List.append_eq_nil_iff.mp hnil).1]
    decide
  · rw [isAbsolute_iff, components_ofComponents _ hpre fun c hc => ⟨_, hc⟩]
    rcases hpre with rfl | rfl
    · simp only [List.nil_append, List.nil_eq, reduceCtorEq, iff_false]
      exact fun hhead => root_not_mem_steps _ (List.mem_of_head? hhead)
    · simp

/-- The pieces that some steps are written as stand for these steps. -/
theorem filterMap_ofPiece?_texts {cs : List Component} (hcs : ∀ c ∈ cs, ∃ s, c ∈ steps s) :
    (cs.map fun c => c.text.toList).filterMap Component.ofPiece? = cs := by
  induction cs with
  | nil => rfl
  | cons c rest ih =>
    obtain ⟨⟨s, hs⟩, hrest⟩ := List.forall_mem_cons.mp hcs
    have hstep := steps_text hs
    rw [steps, pieces_of_not_mem (text_of_mem_steps hs).2.2] at hstep
    rw [List.map_cons, ← List.singleton_append, List.filterMap_append, hstep, ih hrest]
    rfl

/-- A normalized path spells the same steps. -/
theorem steps_normalize (p : Path) : steps p.normalize.text.toList = steps p.text.toList := by
  obtain ⟨front, hfront, hpieces⟩ := pieces_normalize p
  have hnone : front.filterMap Component.ofPiece? = [] := by
    refine List.filterMap_eq_nil_iff.mpr fun n hn => ?_
    rcases hfront n hn with rfl | rfl <;> decide
  rw [steps, hpieces, List.filterMap_append, hnone, List.nil_append]
  exact filterMap_ofPiece?_texts fun c hc => ⟨_, hc⟩

/-- A normalized path is not empty. -/
theorem text_normalize_ne (p : Path) : p.normalize.text ≠ "" := by
  obtain ⟨pre, hpre, -, hnormalize⟩ := normalize_eq p
  rw [hnormalize]
  split
  · decide
  · next hne =>
    intro hempty
    have hcomponents := components_ofComponents pre hpre fun c hc => ⟨p.text.toList, hc⟩
    have hpath : ofComponents (pre ++ steps p.text.toList) = ⟨""⟩ := congrArg Path.mk hempty
    rw [hpath] at hcomponents
    exact hne hcomponents.symm

/-- A path means the same absolute components when it has been normalized. -/
theorem absolute?_normalize (hp : p.text ≠ "") (cwd : Option Location) :
    p.normalize.absolute? cwd = p.absolute? cwd := by
  have hempty : p.text.isEmpty = false := String.isEmpty_eq_false_iff.mpr hp
  have hempty' : p.normalize.text.isEmpty = false :=
    String.isEmpty_eq_false_iff.mpr (text_normalize_ne p)
  rw [absolute?, absolute?, hempty, hempty', isAbsolute_normalize, components_filter,
    components_filter, isAbsolute_normalize, steps_normalize]
  split
  · rfl
  · split
    · next habsolute =>
      rw [components_eq, components_eq, isAbsolute_normalize, if_pos habsolute, if_pos habsolute,
        steps_normalize]
    · rfl

end CxxScript.Path

import CxxScript.Path.Lexical

/-!
# A path and its last piece

The text of a path is what leads to its last piece, and that piece. What the functions on file names
do is told in these terms: where the last piece is a name, `fileName?` is that name and
`withExtension` changes nothing before it, and in a path that has been normalized `withFileName`
puts another name in its place. What leads to the name says where the file is, whatever the name.
-/

set_option autoImplicit false

namespace CxxScript.Path

/-! ## Pieces and steps -/

/-- The pieces around a slash are those before it and those behind it. -/
theorem pieces_append_slash (a b : List Char) : pieces (a ++ '/' :: b) = pieces a ++ pieces b := by
  induction a with
  | nil => rfl
  | cons c rest ih =>
    rw [List.cons_append, pieces, pieces]
    split
    · rw [ih, List.cons_append]
    · rw [ih]
      cases hp : pieces rest with
      | nil => exact absurd hp (pieces_ne_nil rest)
      | cons piece more => rfl

/-- A text without a slash is one piece. -/
theorem pieces_of_not_mem {n : List Char} (hn : '/' ∉ n) : pieces n = [n] := by
  induction n with
  | nil => rfl
  | cons c rest ih =>
    rw [List.mem_cons, not_or] at hn
    have hc : (c == '/') = false := by simpa using Ne.symm hn.1
    rw [pieces, hc, ih hn.2]
    rfl

/-- There is no slash in a piece. -/
theorem not_mem_of_mem_pieces {s n : List Char} (h : n ∈ pieces s) : '/' ∉ n := by
  induction s generalizing n with
  | nil =>
    rw [pieces, List.mem_singleton] at h
    rw [h]
    exact List.not_mem_nil
  | cons c rest ih =>
    rw [pieces] at h
    split at h
    · rcases List.mem_cons.mp h with rfl | h
      · exact List.not_mem_nil
      · exact ih h
    · next hc =>
      have hc : '/' ≠ c := fun heq => hc (by rw [heq]; exact beq_self_eq_true c)
      split at h
      · next hp => exact absurd hp (pieces_ne_nil rest)
      · next piece more hp =>
        rcases List.mem_cons.mp h with rfl | h
        · rw [List.mem_cons, not_or]
          exact ⟨hc, ih (by rw [hp]; exact List.mem_cons_self)⟩
        · exact ih (by rw [hp]; exact List.mem_cons_of_mem _ h)

/-- The steps that a text spells. -/
def steps (s : List Char) : List Component := (pieces s).filterMap Component.ofPiece?

/-- A piece that is a name: it is not empty, it has no slash, and it is no dots. -/
structure IsName (n : List Char) : Prop where
  ne_nil : n ≠ []
  ne_here : n ≠ ['.']
  ne_up : n ≠ ['.', '.']
  noSlash : '/' ∉ n

instance (n : List Char) : Decidable (IsName n) :=
  decidable_of_iff (n ≠ [] ∧ n ≠ ['.'] ∧ n ≠ ['.', '.'] ∧ '/' ∉ n)
    ⟨fun ⟨hnil, hhere, hup, hslash⟩ => ⟨hnil, hhere, hup, hslash⟩,
      fun h => ⟨h.ne_nil, h.ne_here, h.ne_up, h.noSlash⟩⟩

/-- The text before a last piece: there is none, or it ends with a slash. -/
def IsLead (d : List Char) : Prop := d = [] ∨ ∃ d', d = d' ++ ['/']

/-- The steps behind a lead come after its own. -/
theorem steps_append {d : List Char} (hd : IsLead d) (n : List Char) :
    steps (d ++ n) = steps d ++ steps n := by
  rcases hd with rfl | ⟨d', rfl⟩
  · rfl
  · have hnil : steps [] = [] := rfl
    rw [List.append_assoc, List.singleton_append, steps, steps, steps, pieces_append_slash,
      pieces_append_slash, List.filterMap_append, List.filterMap_append, List.append_assoc]
    exact congrArg _ (congrArg (· ++ _) hnil.symm)

/-- A name is one step. -/
theorem steps_of_isName {n : List Char} (hn : IsName n) :
    steps n = [.name (String.ofList n)] := by
  have hpiece : Component.ofPiece? n = some (.name (String.ofList n)) := by
    rw [Component.ofPiece?]
    simp [hn.ne_nil, hn.ne_here, hn.ne_up]
  rw [steps, pieces_of_not_mem hn.noSlash, List.filterMap_cons_some hpiece, List.filterMap_nil]

/-- A slash at the end says nothing. -/
theorem steps_append_slash (s : List Char) : steps (s ++ "/".toList) = steps s := by
  have hnil : [[]].filterMap Component.ofPiece? = [] := rfl
  rw [steps, show s ++ "/".toList = s ++ '/' :: [] from rfl, pieces_append_slash,
    List.filterMap_append, pieces, hnil, List.append_nil]
  rfl

/-- A piece that is not left out is a step. -/
theorem steps_ne_nil {n : List Char} (hnil : n ≠ []) (hhere : n ≠ ['.']) (hslash : '/' ∉ n) :
    steps n ≠ [] := by
  have hpiece : Component.ofPiece? n ≠ none := by
    rw [Component.ofPiece?, if_neg (by simp [hnil, hhere])]
    split <;> simp
  obtain ⟨c, hc⟩ := Option.ne_none_iff_exists'.mp hpiece
  rw [steps, pieces_of_not_mem hslash, List.filterMap_cons_some hc]
  exact List.cons_ne_nil _ _

/-- A step is `..` or a name. -/
theorem eq_up_or_isName_of_mem_steps {s : List Char} {c : Component} (h : c ∈ steps s) :
    c = .up ∨ ∃ n, IsName n ∧ c = .name (String.ofList n) := by
  obtain ⟨n, hn, hc⟩ := List.mem_filterMap.mp h
  unfold Component.ofPiece? at hc
  split at hc
  · cases hc
  · next hhere =>
    rw [Bool.or_eq_true, not_or] at hhere
    simp only [decide_eq_true_eq] at hhere
    split at hc
    · exact .inl (Option.some.inj hc).symm
    · next hup =>
      exact .inr ⟨n, ⟨hhere.1, hhere.2, hup, not_mem_of_mem_pieces hn⟩, (Option.some.inj hc).symm⟩

/-- A step that is a name is the name of a file. -/
theorem isName_of_mem_steps {s : List Char} {text : String} (h : .name text ∈ steps s) :
    IsName text.toList := by
  rcases eq_up_or_isName_of_mem_steps h with heq | ⟨n, hn, heq⟩
  · cases heq
  · cases heq
    rw [String.toList_ofList]
    exact hn

/-- The root is no step. -/
theorem root_not_mem_steps (s : List Char) : Component.root ∉ steps s := by
  intro hroot
  rcases eq_up_or_isName_of_mem_steps hroot with heq | ⟨n, -, heq⟩ <;> cases heq

/-- The components of a path are its steps, with a root or a `.` before them or nothing. -/
theorem components_eq (p : Path) : p.components =
    (if p.isAbsolute then [.root]
      else if (pieces p.text.toList).head? = some ['.'] then [.here] else []) ++
      steps p.text.toList := by
  rw [components, steps]
  split
  · rfl
  · split <;> rfl

/-- A path without its `.` is its steps, with a root before them or nothing. -/
theorem components_filter (p : Path) : p.components.filter (· ≠ .here) =
    (if p.isAbsolute then [.root] else []) ++ steps p.text.toList := by
  have hsteps : (steps p.text.toList).filter (· ≠ .here) = steps p.text.toList := by
    refine List.filter_eq_self.mpr fun c hc => ?_
    rcases eq_up_or_isName_of_mem_steps hc with rfl | ⟨n, -, rfl⟩ <;> simp
  rw [components_eq, List.filter_append, hsteps]
  split
  · rfl
  · split <;> rfl

/-! ## Splitting a text at its last piece -/

variable {p : Path} {d n : List Char}

/-- A name that is no root ends a path as its last step. -/
theorem fileName?_of_split (h : p.text.toList = d ++ n) (hd : IsLead d) (hn : IsName n) :
    p.fileName? = some (String.ofList n) := by
  have hlast : p.components.getLast? = some (.name (String.ofList n)) := by
    rw [components_eq, h, steps_append hd, steps_of_isName hn, ← List.append_assoc,
      List.getLast?_concat]
  rw [fileName?, hlast]

/-- Nothing is dropped from the end of a text whose last piece is not left out. -/
theorem dropTail_of_piece (hnil : n ≠ []) (hhere : n ≠ ['.']) (hslash : '/' ∉ n)
    (rest : List Char) : dropTail (n.reverse ++ rest) = n.reverse ++ rest := by
  obtain ⟨c, before, hc⟩ : ∃ c before, n.reverse = c :: before :=
    List.exists_cons_of_ne_nil (by simpa using hnil)
  have hmem : ∀ x ∈ c :: before, x ≠ '/' := by
    intro x hx heq
    refine hslash ?_
    rw [← heq, ← List.mem_reverse, hc]
    exact hx
  have hcslash : c ≠ '/' := hmem c List.mem_cons_self
  rw [hc, List.cons_append]
  unfold dropTail
  split
  · next hs => exact absurd (List.cons.inj hs).1 hcslash
  · next hs =>
    obtain ⟨hdot, hs⟩ := List.cons.inj hs
    cases before with
    | nil =>
      have : n = ['.'] := by
        rw [← List.reverse_reverse n, hc, hdot]
        rfl
      exact absurd this hhere
    | cons x more =>
      rw [List.cons_append] at hs
      exact absurd (List.cons.inj hs).1 (hmem x (by simp))
  · rfl

/-- Another extension changes nothing before the last piece. -/
theorem withExtension_of_split (h : p.text.toList = d ++ n) (hd : IsLead d) (hn : IsName n)
    (e : String) (hdot : (cutName (String.ofList n)).1 ≠ ".") :
    p.withExtension e =
      ⟨String.ofList d ++ (cutName (String.ofList n)).1 ++
        if e.isEmpty then "" else "." ++ e⟩ := by
  have hwritten : p.text.toList.reverse = n.reverse ++ d.reverse := by
    rw [h, List.reverse_append]
  have hlength : (String.ofList n).length = n.reverse.length := by
    rw [← String.length_toList, String.toList_ofList, List.length_reverse]
  have hbefore : (n.reverse ++ d.reverse).drop (String.ofList n).length = d.reverse := by
    rw [hlength, List.drop_left]
  rw [withExtension, fileName?_of_split h hd hn]
  simp only [hwritten, dropTail_of_piece hn.ne_nil hn.ne_here hn.noSlash, hbefore,
    List.reverse_reverse, beq_eq_false_iff_ne.mpr hdot, Bool.false_and, Bool.false_eq_true,
    if_false]

/-! ## Joining and normalizing -/

/-- The text of a path as it stands before what is joined to it. -/
def prefixText (p : Path) : String :=
  if p.text.isEmpty || p.text.toList.getLast? == some '/' then p.text else p.text ++ "/"

/-- What is joined to a path stands behind a lead. -/
theorem isLead_prefixText (p : Path) : IsLead p.prefixText.toList := by
  unfold prefixText
  split
  · next h =>
    rw [Bool.or_eq_true] at h
    rcases h with h | h
    · rw [String.isEmpty_iff] at h
      exact .inl (by rw [h]; rfl)
    · obtain ⟨d', hd⟩ := List.getLast?_eq_some_iff.mp (eq_of_beq h)
      exact .inr ⟨d', hd⟩
  · exact .inr ⟨p.text.toList, by rw [String.toList_append]; rfl⟩

/-- A relative path is joined behind the lead. -/
theorem join_of_relative (p : Path) {q : Path} (hq : q.isAbsolute = false) :
    p.join q = ⟨p.prefixText ++ q.text⟩ := by
  rw [join, if_neg (by rw [hq]; exact Bool.false_ne_true), prefixText]
  split <;> rfl

/-- A text that does not begin with a slash is a relative path. -/
theorem isAbsolute_of_not_mem {q : Path} (h : '/' ∉ q.text.toList) : q.isAbsolute = false := by
  rw [isAbsolute]
  cases hq : q.text.toList with
  | nil => rfl
  | cons c rest =>
    rw [hq, List.mem_cons, not_or] at h
    exact beq_eq_false_iff_ne.mpr fun heq => h.1 (Option.some.inj heq).symm

/-- The path of some components is that of all but the last, with the last one joined to it. -/
theorem ofComponents_concat (cs : List Component) (c : Component) :
    ofComponents (cs ++ [c]) = (ofComponents cs).join ⟨c.text⟩ := by
  rw [ofComponents, List.foldl_append]
  rfl

/-- A directory that can stand before a name: no text, the root, or a text that ends with a piece
that is not left out. -/
def IsTidy (dir : Path) : Prop :=
  dir.text.toList = [] ∨ dir.text.toList = ['/'] ∨
    ∃ d n, dir.text.toList = d ++ n ∧ IsLead d ∧ n ≠ [] ∧ n ≠ ['.'] ∧ '/' ∉ n

/-- The text of a step that a text spells. -/
theorem text_of_mem_steps {s : List Char} {c : Component} (h : c ∈ steps s) :
    c.text.toList ≠ [] ∧ c.text.toList ≠ ['.'] ∧ '/' ∉ c.text.toList := by
  rcases eq_up_or_isName_of_mem_steps h with rfl | ⟨n, hn, rfl⟩
  · decide
  · rw [Component.text, String.toList_ofList]
    exact ⟨hn.ne_nil, hn.ne_here, hn.noSlash⟩

/-- Steps behind a root or behind nothing spell a tidy path. -/
theorem isTidy_ofComponents {pre cs : List Component} (hpre : pre = [] ∨ pre = [.root])
    (hcs : ∀ c ∈ cs, ∃ s, c ∈ steps s) : IsTidy (ofComponents (pre ++ cs)) := by
  rcases List.eq_nil_or_concat cs with rfl | ⟨before, c, rfl⟩
  · rcases hpre with rfl | rfl
    · exact .inl rfl
    · exact .inr (.inl (by decide))
  · obtain ⟨s, hs⟩ := hcs c (by simp)
    obtain ⟨hnil, hhere, hslash⟩ := text_of_mem_steps hs
    rw [List.concat_eq_append, ← List.append_assoc, ofComponents_concat,
      join_of_relative _ (isAbsolute_of_not_mem (q := ⟨c.text⟩) hslash)]
    refine .inr (.inr ⟨(ofComponents (pre ++ before)).prefixText.toList, c.text.toList, ?_,
      isLead_prefixText _, hnil, hhere, hslash⟩)
    exact String.toList_append

/-- What comes before and after the name in a normalized path that ends with one. -/
theorem normalize_split {q : Path} {name : String} (h : q.normalize.fileName? = some name) :
    ∃ dir : Path, IsTidy dir ∧ IsName name.toList ∧
      q.normalize = ⟨dir.prefixText ++ name⟩ := by
  obtain ⟨pre, hpre, hcs⟩ : ∃ pre, (pre = [] ∨ pre = [Component.root]) ∧
      q.components.filter (· ≠ .here) = pre ++ steps q.text.toList := by
    refine ⟨_, ?_, components_filter q⟩
    split
    · exact .inr rfl
    · exact .inl rfl
  have hdot : (⟨"."⟩ : Path).fileName? = none := by decide
  have hroot : (ofComponents [.root]).fileName? = none := by decide
  rcases List.eq_nil_or_concat (steps q.text.toList) with hnil | ⟨before, c, hconcat⟩
  · rw [hnil, List.append_nil] at hcs
    exfalso
    rcases hpre with rfl | rfl
    · rw [normalize, hcs, hdot] at h
      cases h
    · rw [normalize, hcs] at h
      dsimp only at h
      rw [hroot] at h
      cases h
  · rw [List.concat_eq_append] at hconcat
    have hmem : ∀ x ∈ before ++ [c], ∃ s, x ∈ steps s := fun x hx => ⟨_, hconcat ▸ hx⟩
    have hctext := text_of_mem_steps (show c ∈ steps q.text.toList by rw [hconcat]; simp)
    have hnorm : q.normalize = ⟨(ofComponents (pre ++ before)).prefixText ++ c.text⟩ := by
      rw [normalize, hcs, hconcat, ← List.append_assoc]
      rw [← join_of_relative _ (isAbsolute_of_not_mem (q := ⟨c.text⟩) hctext.2.2),
        ← ofComponents_concat]
      split
      · next hempty => simp at hempty
      · rfl
    have htidy : IsTidy (ofComponents (pre ++ before)) :=
      isTidy_ofComponents hpre fun x hx => hmem x (List.mem_append_left _ hx)
    have htext : q.normalize.text.toList =
        (ofComponents (pre ++ before)).prefixText.toList ++ c.text.toList := by
      rw [hnorm]
      exact String.toList_append
    rcases eq_up_or_isName_of_mem_steps (show c ∈ steps q.text.toList by rw [hconcat]; simp) with
      rfl | ⟨n, hn, rfl⟩
    · exfalso
      have hup : q.normalize.components.getLast? = some .up := by
        rw [components_eq, htext, steps_append (isLead_prefixText _), ← List.append_assoc]
        exact List.getLast?_concat
      rw [fileName?, hup] at h
      cases h
    · have htext' : q.normalize.text.toList =
          (ofComponents (pre ++ before)).prefixText.toList ++ n := by
        rw [htext, Component.text, String.toList_ofList]
      have hname := fileName?_of_split htext' (isLead_prefixText _) hn
      rw [hname] at h
      cases h
      exact ⟨_, htidy, by rw [String.toList_ofList]; exact hn, hnorm⟩

/-- A directory that ends with a piece stands before a slash. -/
theorem prefixText_of_piece {dir : Path} (h : dir.text.toList = d ++ n) (hnil : n ≠ [])
    (hslash : '/' ∉ n) : dir.prefixText = dir.text ++ "/" := by
  have hempty : dir.text.isEmpty = false := by
    rw [String.isEmpty_eq_false_iff]
    intro heq
    rw [heq] at h
    exact hnil (List.append_eq_nil_iff.mp h.symm).2
  have hlast : (dir.text.toList.getLast? == some '/') = false := by
    refine beq_eq_false_iff_ne.mpr fun heq => hslash ?_
    rw [h, List.getLast?_append, List.getLast?_eq_some_getLast hnil, Option.some_or] at heq
    exact Option.some.inj heq ▸ List.getLast_mem hnil
  rw [prefixText, hempty, hlast]
  rfl

/-- That slash is all that is dropped from the end of the lead. -/
theorem dropTail_prefixText {dir : Path} (h : dir.text.toList = d ++ n) (hnil : n ≠ [])
    (hhere : n ≠ ['.']) (hslash : '/' ∉ n) :
    dropTail dir.prefixText.toList.reverse = dir.text.toList.reverse := by
  rw [prefixText_of_piece h hnil hslash, String.toList_append, List.reverse_append, h,
    List.reverse_append]
  exact dropTail_of_piece hnil hhere hslash d.reverse

/-- The directory of a path whose last component stands behind more than a root is what stands
before that component. -/
theorem parent?_of_last {c : Component} {rest : List Component} {lead : List Char}
    (hc : p.components = rest ++ [c]) (hroot : c ≠ .root) (hrest : rest ≠ [.root])
    (h : dropTail p.text.toList.reverse = c.text.toList.reverse ++ lead.reverse) :
    p.parent? = some ⟨String.ofList (dropTail lead.reverse).reverse⟩ := by
  have hreverse : p.components.reverse = c :: rest.reverse := by
    rw [hc, List.reverse_append]
    rfl
  have hbefore : (dropTail p.text.toList.reverse).drop c.text.length = lead.reverse := by
    rw [h, ← String.length_toList, ← List.length_reverse, List.drop_left]
  rw [parent?, hreverse]
  split
  · next heq => cases heq
  · next heq => exact absurd (List.cons.inj heq).1 hroot
  · next heq =>
    have hback : rest.reverse = [.root] := (List.cons.inj heq).2
    exact absurd (by rw [← List.reverse_reverse rest, hback]; rfl) hrest
  · next last _ _ _ heq =>
    obtain ⟨rfl, -⟩ := List.cons.inj heq
    dsimp only
    rw [hbefore]

/-- The directory of a path that ends with a name behind more than a root. -/
theorem parent?_of_components {name : String} {rest : List Component} {lead : List Char}
    (hname : IsName name.toList) (hc : p.components = rest ++ [.name name])
    (hrest : rest ≠ [.root]) (h : p.text.toList = lead ++ name.toList) :
    p.parent? = some ⟨String.ofList (dropTail lead.reverse).reverse⟩ := by
  refine parent?_of_last hc (by simp) hrest ?_
  rw [h, List.reverse_append]
  exact dropTail_of_piece hname.ne_nil hname.ne_here hname.noSlash lead.reverse

/-- The directory of a path in which a name stands behind a tidy directory. -/
theorem parent?_of_tidy {dir : Path} {name : String} (hdir : IsTidy dir)
    (hname : IsName name.toList) (h : p = ⟨dir.prefixText ++ name⟩) : p.parent? = some dir := by
  have htext : p.text.toList = dir.prefixText.toList ++ name.toList := by
    rw [h]
    exact String.toList_append
  have hsteps : steps p.text.toList = steps dir.prefixText.toList ++ [.name name] := by
    rw [htext, steps_append (isLead_prefixText dir), steps_of_isName hname, String.ofList_toList]
  have hcomponents := components_eq p
  rw [hsteps, ← List.append_assoc] at hcomponents
  rcases hdir with hnil | hroot | ⟨d, n, hsplit, hlead, hn, hhere, hslash⟩
  · obtain rfl : dir = ⟨""⟩ := by
      cases dir
      exact congrArg Path.mk (String.toList_eq_nil_iff.mp hnil)
    have hfront : (⟨""⟩ : Path).prefixText.toList = [] := by decide
    rw [hfront] at htext
    have hrelative : p.isAbsolute = false := by
      refine isAbsolute_of_not_mem ?_
      rw [htext]
      exact hname.noSlash
    have hfirst : (pieces p.text.toList).head? ≠ some ['.'] := by
      rw [htext, List.nil_append, pieces_of_not_mem hname.noSlash]
      exact fun heq => hname.ne_here (Option.some.inj heq)
    rw [hrelative, if_neg Bool.false_ne_true, if_neg hfirst, hfront] at hcomponents
    rw [parent?_of_components hname hcomponents (by decide) htext]
    rfl
  · obtain rfl : dir = ⟨"/"⟩ := by
      cases dir
      exact congrArg Path.mk (String.toList_inj.mp hroot)
    have hfront : (⟨"/"⟩ : Path).prefixText.toList = ['/'] := by decide
    have habsolute : p.isAbsolute = true := by rw [isAbsolute, htext, hfront]; rfl
    have hnone : steps ['/'] = [] := by decide
    rw [habsolute, if_pos rfl, hfront, hnone] at hcomponents
    rw [parent?, hcomponents]
    rfl
  · have hfront := prefixText_of_piece hsplit hn hslash
    have hdrop := dropTail_prefixText hsplit hn hhere hslash
    have hne : steps dir.prefixText.toList ≠ [] := by
      rw [hfront, String.toList_append, hsplit, steps_append_slash, steps_append hlead]
      intro hnil
      exact steps_ne_nil hn hhere hslash (List.append_eq_nil_iff.mp hnil).2
    obtain ⟨before, c, hc⟩ := (List.eq_nil_or_concat _).resolve_left hne
    rw [List.concat_eq_append] at hc
    have hrest : (if p.isAbsolute then [.root]
        else if (pieces p.text.toList).head? = some ['.'] then [.here] else []) ++
        steps dir.prefixText.toList ≠ [.root] := by
      intro heq
      have hget := congrArg List.getLast? heq
      rw [hc, ← List.append_assoc, List.getLast?_concat] at hget
      have hstep : c ∈ steps dir.prefixText.toList := by rw [hc]; simp
      rcases eq_up_or_isName_of_mem_steps hstep with rfl | ⟨n, -, rfl⟩ <;> cases hget
    rw [parent?_of_components hname hcomponents hrest htext, hdrop, List.reverse_reverse,
      String.ofList_toList]

/-- Another name takes the place of the one behind a tidy directory. -/
theorem withFileName_of_tidy {dir : Path} {name other : String} (hdir : IsTidy dir)
    (hname : IsName name.toList) (hother : '/' ∉ other.toList)
    (h : p = ⟨dir.prefixText ++ name⟩) : p.withFileName other = ⟨dir.prefixText ++ other⟩ := by
  have htext : p.text.toList = dir.prefixText.toList ++ name.toList := by
    rw [h]
    exact String.toList_append
  rw [withFileName, fileName?_of_split htext (isLead_prefixText dir) hname,
    parent?_of_tidy hdir hname h]
  exact join_of_relative dir (isAbsolute_of_not_mem hother)

/-! ## Cutting a name at its last dot -/

/-- A name is cut at a dot behind which there is no other. -/
theorem cutName_append {l e : List Char} (hl : l ≠ []) (he : '.' ∉ e) :
    cutName (String.ofList (l ++ '.' :: e)) = (String.ofList l, some (String.ofList e)) := by
  obtain ⟨c, before, hc⟩ : ∃ c before, l.reverse = c :: before :=
    List.exists_cons_of_ne_nil (by simpa using hl)
  have hreverse : (String.ofList (l ++ '.' :: e)).toList.reverse =
      e.reverse ++ '.' :: l.reverse := by
    rw [String.toList_ofList]
    simp
  have hpos : ∀ x ∈ e.reverse, decide (x ≠ '.') = true := by
    intro x hx
    rw [decide_eq_true_eq]
    rintro rfl
    exact he (List.mem_reverse.mp hx)
  have htake : (e.reverse ++ '.' :: l.reverse).takeWhile (· ≠ '.') = e.reverse := by
    rw [List.takeWhile_append_of_pos hpos]
    simp
  have hdrop : (e.reverse ++ '.' :: l.reverse).dropWhile (· ≠ '.') = '.' :: c :: before := by
    rw [List.dropWhile_append_of_pos hpos, ← hc]
    simp
  have hback : (c :: before).reverse = l := by rw [← hc, List.reverse_reverse]
  rw [cutName]
  simp only [hreverse, htake, hdrop, hback, List.reverse_reverse]

/-- A name with an extension is what stands before the last dot, the dot, and the extension. -/
theorem toList_of_cutName {name e : String} (h : (cutName name).2 = some e) :
    name.toList = (cutName name).1.toList ++ '.' :: e.toList ∧ '.' ∉ e.toList ∧
      (cutName name).1.toList ≠ [] := by
  unfold cutName at h ⊢
  dsimp only at h ⊢
  have hsplit := List.takeWhile_append_dropWhile (p := (· ≠ '.')) (l := name.toList.reverse)
  cases hd : name.toList.reverse.dropWhile (· ≠ '.') with
  | nil => rw [hd] at h; cases h
  | cons dot rest =>
    rw [hd] at h hsplit
    cases rest with
    | nil => cases h
    | cons c before =>
      have hdot : dot = '.' := by
        have hhead := List.head?_dropWhile_not (· ≠ '.') name.toList.reverse
        rw [hd] at hhead
        simpa using hhead
      have he : e = String.ofList (name.toList.reverse.takeWhile (· ≠ '.')).reverse :=
        (Option.some.inj h).symm
      dsimp only
      refine ⟨?_, ?_, ?_⟩
      · rw [← List.reverse_reverse name.toList, ← hsplit, he, hdot]
        simp
      · rw [he, String.toList_ofList, List.mem_reverse]
        intro hmem
        have := List.all_takeWhile (p := (· ≠ '.')) (l := name.toList.reverse)
        rw [List.all_eq_true] at this
        simpa using this _ hmem
      · simp

end CxxScript.Path

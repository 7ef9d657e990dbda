import CxxScript.Package.Query
import CxxScript.Proofs.Build.Running
import CxxScript.Proofs.Text.Splitting
import CxxScript.Proofs.Text.Trimming

/-!
# Packages that are asked for by name

A requirement is read in turns of a gap and a token: a version constraint is a gap and an operator
with a gap and a version behind it, whatever the version looks like, `constraint?_of_run`. What is
left when the constraints are removed has the tokens that were not part of one, so there is nothing
to remove from it any more, `stripChars_stripChars`, and of a requirement that lists packages the
names are left, `split_strip_written`. So the query command is asked about the requirement as it
stands, and then about the packages by name: `flagsFor_asks_by_name`.
-/

set_option autoImplicit false

namespace CxxScript.Package

open Text Host

/-! ## Gaps and tokens -/

/-- The comparison operators of a version constraint. -/
def operators : List String := ["<", ">", "<=", ">=", "==", "!="]

/-- A text without gaps, and not empty. -/
def IsToken (t : List Char) : Prop := t ≠ [] ∧ ∀ c ∈ t, isGap c = false

instance (t : List Char) : Decidable (IsToken t) :=
  decidable_of_iff (t ≠ [] ∧ t.all (fun c => !isGap c) = true) (by simp [IsToken])

/-- Nothing is left of a text, or it begins with a gap: a token ends there. -/
def EndsToken (rest : List Char) : Prop := ∀ c, rest.head? = some c → isGap c = true

/-- A token ends where a gap follows. -/
theorem endsToken_gaps {gap : List Char} (hgap : gap.all isGap = true) (hne : gap ≠ [])
    (rest : List Char) : EndsToken (gap ++ rest) := by
  obtain ⟨d, gap, rfl⟩ := List.exists_cons_of_ne_nil hne
  intro c hc
  cases hc
  rw [List.all_cons, Bool.and_eq_true] at hgap
  exact hgap.1

/-- A text is an operator when its characters are those of one. -/
theorem mem_operators_iff (t : List Char) :
    String.ofList t ∈ operators ↔ t ∈ operators.map String.toList := by
  simp [operators, ← String.toList_inj]

/-- An operator is a token. -/
theorem isToken_of_mem_operators {t : List Char} (ht : String.ofList t ∈ operators) :
    IsToken t := by
  have hall : ∀ t ∈ operators.map String.toList, IsToken t := by decide
  exact hall t ((mem_operators_iff t).mp ht)

/-- A gap is passed when something else follows. -/
theorem gaps?_append {gap rest : List Char} (hgap : gap.all isGap = true) (hne : gap ≠ [])
    (hrest : ∀ c, rest.head? = some c → isGap c = false) : gaps? (gap ++ rest) = some rest := by
  have hdrop : (gap ++ rest).dropWhile isGap = rest := dropWhile_eq_iff.mpr ⟨gap, rfl, hgap, hrest⟩
  cases gap with
  | nil => exact absurd rfl hne
  | cons c gap =>
    rw [List.all_cons, Bool.and_eq_true] at hgap
    rw [List.cons_append] at hdrop ⊢
    rw [gaps?, if_pos hgap.1, hdrop]

/-- There is no gap where something else begins. -/
theorem gaps?_eq_none {s : List Char} (h : ∀ c, s.head? = some c → isGap c = false) :
    gaps? s = none := by
  cases s with
  | nil => rfl
  | cons c rest => rw [gaps?, if_neg (by simp [h c rfl])]

/-- A token is passed where it ends. -/
theorem token?_append {t rest : List Char} (ht : IsToken t) (hrest : EndsToken rest) :
    token? (t ++ rest) = some rest := by
  have hdrop : (t ++ rest).dropWhile (fun c => !isGap c) = rest := by
    refine dropWhile_eq_iff.mpr ⟨t, rfl, ?_, fun c hc => by simp [hrest c hc]⟩
    exact List.all_eq_true.mpr fun c hc => by simp [ht.2 c hc]
  obtain ⟨hne, hplain⟩ := ht
  cases t with
  | nil => exact absurd rfl hne
  | cons c t =>
    rw [List.cons_append] at hdrop ⊢
    rw [token?, if_neg (by simp [hplain c List.mem_cons_self]), hdrop]

/-- Without an equals sign behind it a character is an operator alone or not at all. -/
theorem operator?_of_ne {c : Char} {s : List Char} (h : s.head? ≠ some '=') :
    operator? (c :: s) = if c == '<' || c == '>' then some s else none := by
  unfold operator?
  split
  · next heq =>
    obtain ⟨-, rfl⟩ := List.cons.inj heq
    exact absurd rfl h
  · next heq =>
    obtain ⟨rfl, rfl⟩ := List.cons.inj heq
    rfl
  · next heq => cases heq

/-- No equals sign follows where a token ends. -/
theorem EndsToken.head_ne {rest : List Char} (h : EndsToken rest) : rest.head? ≠ some '=' := by
  intro heq
  cases h _ heq

/-- An operator is passed where it ends. -/
theorem operator?_of_mem {t rest : List Char} (ht : String.ofList t ∈ operators)
    (hrest : EndsToken rest) : operator? (t ++ rest) = some rest := by
  rw [mem_operators_iff] at ht
  simp only [operators, List.map_cons, List.map_nil, List.mem_cons, List.not_mem_nil, or_false]
    at ht
  rcases ht with rfl | rfl | rfl | rfl | rfl | rfl
  · exact operator?_of_ne hrest.head_ne
  · exact operator?_of_ne hrest.head_ne
  all_goals rfl

/-- No operator with a gap behind it is found in a token that is none. -/
theorem operator?_of_not_mem {t rest : List Char} (hplain : IsToken t)
    (ht : String.ofList t ∉ operators) (hrest : EndsToken rest) :
    (operator? (t ++ rest)).bind gaps? = none := by
  have hnone : ∀ {d : Char} {s : List Char} {p : Prop} [Decidable p], isGap d = false →
      (if p then some (d :: s) else none).bind gaps? = none := by
    intro d s p _ hd
    split
    · exact gaps?_eq_none (s := d :: s) fun c hc => by cases hc; exact hd
    · rfl
  rw [mem_operators_iff] at ht
  obtain ⟨hne, hplain⟩ := hplain
  -- An operator has at most two characters, and then a gap must follow: the token is one of them,
  -- or what follows is a character of the token.
  cases t with
  | nil => exact absurd rfl hne
  | cons c t =>
  cases t with
  | nil =>
    have hc : ¬ (c == '<' || c == '>') = true := by
      simp only [Bool.or_eq_true, beq_iff_eq]
      rintro (rfl | rfl) <;> exact ht (by decide)
    rw [List.singleton_append, operator?_of_ne hrest.head_ne, if_neg hc, Option.bind_none]
  | cons d t =>
    have hd : isGap d = false := hplain d (by simp)
    by_cases hequals : d = '='
    · subst hequals
      cases t with
      | nil =>
        have hc : ¬ "<>=!".toList.contains c = true := by
          rw [List.contains_iff_mem]
          intro hmem
          have hone : c = '<' ∨ c = '>' ∨ c = '=' ∨ c = '!' := by simpa using hmem
          rcases hone with rfl | rfl | rfl | rfl <;> exact ht (by decide)
        show (if "<>=!".toList.contains c = true then some rest else none).bind gaps? = none
        rw [if_neg hc, Option.bind_none]
      | cons e t => exact hnone (hplain e (by simp))
    · rw [List.cons_append, operator?_of_ne (by simpa using hequals)]
      exact hnone hd

/-- A gap is over where a token begins. -/
theorem IsToken.stops {t : List Char} (ht : IsToken t) (rest : List Char) :
    ∀ c, (t ++ rest).head? = some c → isGap c = false := by
  obtain ⟨hne, hplain⟩ := ht
  obtain ⟨d, t, rfl⟩ := List.exists_cons_of_ne_nil hne
  intro c hc
  cases hc
  exact hplain d List.mem_cons_self

/-- No constraint begins without a gap. -/
theorem constraint?_eq_none {s : List Char} (h : ∀ c, s.head? = some c → isGap c = false) :
    constraint? s = none := by
  rw [constraint?, gaps?_eq_none h]
  rfl

/-- A gap and a token begin a constraint just when the token is an operator with a version behind
it, and then the version is a token of any kind. -/
theorem constraint?_of_run {gap t rest : List Char} (hgap : gap.all isGap = true) (hne : gap ≠ [])
    (ht : IsToken t) (hrest : EndsToken rest) : constraint? (gap ++ (t ++ rest)) =
      if String.ofList t ∈ operators then (gaps? rest).bind token? else none := by
  have hstart : constraint? (gap ++ (t ++ rest)) =
      ((operator? (t ++ rest)).bind gaps?).bind token? := by
    rw [constraint?, gaps?_append hgap hne (ht.stops rest)]
    show (operator? (t ++ rest)).bind (fun s => (gaps? s).bind token?) = _
    exact (Option.bind_assoc ..).symm
  rw [hstart]
  split
  · next hmem => rw [operator?_of_mem hmem hrest, Option.bind_some]
  · next hmem => rw [operator?_of_not_mem ht hmem hrest, Option.bind_none]

/-! ## What is left -/

/-- A character at which no constraint begins is kept. -/
theorem stripChars_of_none {c : Char} {rest : List Char} (h : constraint? (c :: rest) = none) :
    stripChars (c :: rest) = c :: stripChars rest := by
  rw [stripChars]
  split
  · next hsome =>
    rw [h] at hsome
    cases hsome
  · rfl

/-- A constraint is removed. -/
theorem stripChars_of_some {s behind : List Char} (h : constraint? s = some behind) :
    stripChars s = stripChars behind := by
  cases s with
  | nil => cases h
  | cons c rest =>
    rw [stripChars]
    split
    · next hsome =>
      rw [h] at hsome
      rw [Option.some.inj hsome]
    · next hnone =>
      rw [h] at hnone
      cases hnone

/-- A token is left where it is not reached by a constraint before it. -/
theorem stripChars_token {t : List Char} (ht : ∀ c ∈ t, isGap c = false) (rest : List Char) :
    stripChars (t ++ rest) = t ++ stripChars rest := by
  induction t with
  | nil => rfl
  | cons c t ih =>
    obtain ⟨hc, ht⟩ := List.forall_mem_cons.mp ht
    have hnone : constraint? (c :: (t ++ rest)) = none :=
      constraint?_eq_none (s := c :: (t ++ rest)) fun d hd => by cases hd; exact hc
    rw [List.cons_append, stripChars_of_none hnone, ih ht, List.cons_append]

/-- Gaps are left where no constraint begins with any of them. -/
theorem stripChars_gaps {gap rest : List Char} (hgap : gap.all isGap = true)
    (h : ∀ gap', gap'.all isGap = true → gap' ≠ [] → constraint? (gap' ++ rest) = none) :
    stripChars (gap ++ rest) = gap ++ stripChars rest := by
  induction gap with
  | nil => rfl
  | cons c gap ih =>
    have hnone := h (c :: gap) hgap (List.cons_ne_nil c gap)
    rw [List.all_cons, Bool.and_eq_true] at hgap
    rw [List.cons_append] at hnone ⊢
    rw [stripChars_of_none hnone, ih hgap.2, List.cons_append]

/-- Gaps with nothing behind them are kept. -/
theorem stripChars_of_gaps {gap : List Char} (hgap : gap.all isGap = true) :
    stripChars gap = gap := by
  have hleft := @stripChars_gaps gap [] hgap fun gap' hgap' hne => by
    rw [constraint?, gaps?_append hgap' hne fun c hc => by cases hc]
    rfl
  rw [List.append_nil] at hleft
  rw [hleft, stripChars, List.append_nil]

/-- A gap and a token that are not the beginning of a constraint are kept. -/
theorem stripChars_run {gap t rest : List Char} (hgap : gap.all isGap = true) (ht : IsToken t)
    (hrest : EndsToken rest)
    (hkept : gap = [] ∨ String.ofList t ∉ operators ∨ (gaps? rest).bind token? = none) :
    stripChars (gap ++ (t ++ rest)) = gap ++ (t ++ stripChars rest) := by
  rcases hkept with rfl | hkept
  · rw [List.nil_append, stripChars_token ht.2, List.nil_append]
  rw [stripChars_gaps hgap, stripChars_token ht.2]
  intro gap' hgap' hne
  rw [constraint?_of_run hgap' hne ht hrest]
  rcases hkept with hmem | hnone
  · rw [if_neg hmem]
  · rw [hnone, ite_self]

/-- A gap, an operator, another gap and a version are removed together. -/
theorem stripChars_constraint {gap op gap' version rest : List Char} (hgap : gap.all isGap = true)
    (hne : gap ≠ []) (hop : String.ofList op ∈ operators)
    (hgap' : gap'.all isGap = true) (hne' : gap' ≠ []) (hversion : IsToken version)
    (hrest : EndsToken rest) :
    stripChars (gap ++ (op ++ (gap' ++ (version ++ rest)))) = stripChars rest := by
  refine stripChars_of_some ?_
  have hends : EndsToken (gap' ++ (version ++ rest)) := endsToken_gaps hgap' hne' _
  rw [constraint?_of_run hgap hne (isToken_of_mem_operators hop) hends, if_pos hop,
    gaps?_append hgap' hne' (hversion.stops rest), Option.bind_some, token?_append hversion hrest]

/-! ## Nothing is left to remove -/

/-- What becomes of a text when the constraints are removed: it is gaps alone and stays, it begins
with a constraint, or it begins with a token that stays, maybe behind gaps. -/
inductive Turn (s : List Char) : Prop
  | idle (hgaps : s.all isGap = true)
  | removed {rest : List Char} (hlength : rest.length < s.length) (hends : EndsToken rest)
      (hleft : stripChars s = stripChars rest)
  | kept {gap t rest : List Char} (hs : s = gap ++ (t ++ rest)) (hgap : gap.all isGap = true)
      (ht : IsToken t) (hends : EndsToken rest)
      (hkept : gap = [] ∨ String.ofList t ∉ operators ∨ (gaps? rest).bind token? = none)

/-- Where a token has been passed, it ends. -/
theorem endsToken_of_token? {s rest : List Char} (h : token? s = some rest) : EndsToken rest := by
  unfold token? at h
  split at h
  · split at h
    · cases h
    · cases h
      intro c hc
      obtain ⟨-, -, -, hstop⟩ := dropWhile_eq_iff.mp (rfl : List.dropWhile _ _ = _)
      simpa using hstop c hc
  · cases h

/-- Every text is read in turns. -/
theorem turn (s : List Char) : Turn s := by
  obtain ⟨gap, hs, hgap, hstart⟩ := dropWhile_eq_iff.mp (rfl : s.dropWhile isGap = _)
  obtain ⟨t, hrest, ht, hstop⟩ :=
    dropWhile_eq_iff.mp (rfl : (s.dropWhile isGap).dropWhile (fun c => !isGap c) = _)
  generalize (s.dropWhile isGap).dropWhile (fun c => !isGap c) = rest at hrest hstop
  have hplain : ∀ c ∈ t, isGap c = false := fun c hc => by simpa using List.all_eq_true.mp ht c hc
  have hends : EndsToken rest := fun c hc => by simpa using hstop c hc
  by_cases hnil : t = []
  · -- Without a token nothing stands behind the gaps: it would be a gap and none.
    have hnone : rest = [] := by
      cases rest with
      | nil => rfl
      | cons c rest =>
        have hgapped := hends c rfl
        rw [hstart c (by rw [hrest, hnil]; rfl)] at hgapped
        cases hgapped
    refine .idle ?_
    rw [hs, hrest, hnil, hnone, List.append_nil, List.append_nil, hgap]
  have htoken : IsToken t := ⟨hnil, hplain⟩
  rw [hrest] at hs
  by_cases hkept : gap = [] ∨ String.ofList t ∉ operators ∨ (gaps? rest).bind token? = none
  · exact .kept hs hgap htoken hends hkept
  · simp only [not_or, not_not] at hkept
    obtain ⟨hne, hop, hversion⟩ := hkept
    obtain ⟨behind, hbehind⟩ := Option.ne_none_iff_exists'.mp hversion
    have hconstraint : constraint? s = some behind := by
      rw [hs, constraint?_of_run hgap hne htoken hends, if_pos hop, hbehind]
    obtain ⟨_, -, htaken⟩ := Option.bind_eq_some_iff.mp hbehind
    exact .removed (constraint?_length hconstraint) (endsToken_of_token? htaken)
      (stripChars_of_some hconstraint)

/-- What stands behind a token is shorter than the whole. -/
theorem length_lt_of_token {gap t rest : List Char} (ht : IsToken t) :
    rest.length < (gap ++ (t ++ rest)).length := by
  have := List.length_pos_iff.mpr ht.1
  simp only [List.length_append]
  omega

/-- Where a token ends, it ends when the constraints behind it are removed. -/
theorem endsToken_stripChars {s : List Char} (h : EndsToken s) : EndsToken (stripChars s) := by
  cases turn s with
  | idle hgaps => rwa [stripChars_of_gaps hgaps]
  | removed hlength hends hleft =>
    rw [hleft]
    exact endsToken_stripChars hends
  | @kept gap t rest hs hgap ht hends hkept =>
    rw [hs] at h ⊢
    rw [stripChars_run hgap ht hends hkept]
    obtain ⟨c, more, hgapcons⟩ : ∃ c more, gap = c :: more := by
      refine List.exists_cons_of_ne_nil fun hnil => ?_
      obtain ⟨d, t', rfl⟩ := List.exists_cons_of_ne_nil ht.1
      have hd := ht.2 d List.mem_cons_self
      rw [h d (by rw [hnil]; rfl)] at hd
      cases hd
    rw [hgapcons] at h ⊢
    intro d hd
    exact h d hd
  termination_by s.length

/-- Behind an operator without a version there is nothing but gaps. -/
theorem gaps_of_no_version {rest : List Char} (hends : EndsToken rest)
    (h : (gaps? rest).bind token? = none) : rest.all isGap = true := by
  cases rest with
  | nil => rfl
  | cons c rest =>
    rw [gaps?, if_pos (hends c rfl), Option.bind_some] at h
    have hnil : (c :: rest).dropWhile isGap = [] := by
      obtain ⟨-, -, -, hstart⟩ := dropWhile_eq_iff.mp (rfl : (c :: rest).dropWhile isGap = _)
      cases hd : (c :: rest).dropWhile isGap with
      | nil => rfl
      | cons d more =>
        rw [hd] at h hstart
        rw [token?, if_neg (by simp [hstart d rfl])] at h
        cases h
    obtain ⟨run, hrun, hgaps, -⟩ := dropWhile_eq_iff.mp hnil
    rw [hrun, List.append_nil, hgaps]

/-- When the constraints have been removed there is none left. -/
theorem stripChars_stripChars (s : List Char) : stripChars (stripChars s) = stripChars s := by
  cases turn s with
  | idle hgaps => rw [stripChars_of_gaps hgaps, stripChars_of_gaps hgaps]
  | removed hlength hends hleft =>
    rw [hleft]
    exact stripChars_stripChars _
  | @kept gap t rest hs hgap ht hends hkept =>
    have hlength : rest.length < s.length := hs ▸ length_lt_of_token ht
    -- What kept the token keeps it again: if the version was missing, only gaps stood behind the
    -- token, and those are still there.
    have hkept' : gap = [] ∨ String.ofList t ∉ operators ∨
        (gaps? (stripChars rest)).bind token? = none := by
      rcases hkept with hnil | hop | hnone
      · exact .inl hnil
      · exact .inr (.inl hop)
      · rw [stripChars_of_gaps (gaps_of_no_version hends hnone)]
        exact .inr (.inr hnone)
    rw [hs, stripChars_run hgap ht hends hkept,
      stripChars_run hgap ht (endsToken_stripChars hends) hkept', stripChars_stripChars rest]
  termination_by s.length

/-! ## Requirements that list packages -/

/-- Characters that separate tokens: one at least. -/
structure Gap where
  chars : List Char
  all_gap : chars.all isGap = true
  ne_nil : chars ≠ []

/-- A version constraint, with the gaps before the operator and behind it. The version may be any
token, one that looks like an operator too. -/
structure Constraint where
  before : Gap
  operator : String
  between : Gap
  version : String
  operator_mem : operator ∈ operators
  isToken_version : IsToken version.toList

/-- A character that neither separates words nor quotes or takes another one. -/
def isPlain (c : Char) : Bool := c != '\\' && c != '\'' && c != '"' && !isBlank c

/-- A package that is listed by its name, which is no operator and holds nothing but what a reader
of words takes as it stands. -/
structure Listed where
  name : String
  constraint? : Option Constraint := none
  name_ne : name ≠ ""
  name_plain : name.toList.all isPlain = true
  name_not_mem : name ∉ operators

namespace Listed

variable (p : Listed)

/-- How a listed package is written. -/
def written : List Char :=
  p.name.toList ++
    p.constraint?.elim [] fun c =>
      c.before.chars ++ (c.operator.toList ++ (c.between.chars ++ c.version.toList))

/-- In the name of a listed package there is no blank, no quote and no backslash. -/
theorem plain_of_mem {c : Char} (hc : c ∈ p.name.toList) :
    c ≠ '\\' ∧ c ≠ '\'' ∧ c ≠ '"' ∧ isBlank c = false := by
  have hplain := List.all_eq_true.mp p.name_plain c hc
  simpa [isPlain, and_assoc] using hplain

/-- The name of a listed package is a token. -/
theorem isToken_name : IsToken p.name.toList := by
  refine ⟨fun hnil => p.name_ne (String.toList_inj.mp hnil), fun c hc => ?_⟩
  obtain ⟨-, -, -, hblank⟩ := p.plain_of_mem hc
  cases hgap : isGap c with
  | false => rfl
  | true => rw [isBlank_of_isGap hgap] at hblank; cases hblank

end Listed

/-- Of a listed package the name is left, behind its gap. -/
theorem stripChars_listed {gap rest : List Char} (hgap : gap.all isGap = true) (p : Listed)
    (hrest : EndsToken rest) :
    stripChars (gap ++ (p.written ++ rest)) = gap ++ (p.name.toList ++ stripChars rest) := by
  have hname : String.ofList p.name.toList ∉ operators := by
    rw [String.ofList_toList]
    exact p.name_not_mem
  cases hc : p.constraint? with
  | none =>
    rw [Listed.written, hc, Option.elim_none, List.append_nil,
      stripChars_run hgap p.isToken_name hrest (.inr (.inl hname))]
  | some c =>
    have hop : String.ofList c.operator.toList ∈ operators := by
      rw [String.ofList_toList]
      exact c.operator_mem
    have hends := endsToken_gaps c.before.all_gap c.before.ne_nil
      (c.operator.toList ++ (c.between.chars ++ (c.version.toList ++ rest)))
    rw [Listed.written, hc, Option.elim_some, List.append_assoc, List.append_assoc,
      List.append_assoc, List.append_assoc,
      stripChars_run hgap p.isToken_name hends (.inr (.inl hname)),
      stripChars_constraint c.before.all_gap c.before.ne_nil hop c.between.all_gap
        c.between.ne_nil c.isToken_version hrest]

/-- Packages as they are written, each with what stands before it. -/
def written (items : List (List Char × Listed)) : List Char :=
  items.flatMap fun item => item.1 ++ item.2.written

/-- Between any two packages there are gaps, and nothing but gaps stands around them. -/
structure IsSpaced (items : List (List Char × Listed)) (trailing : List Char) : Prop where
  gaps : ∀ item ∈ items, item.1.all isGap = true
  between : ∀ item ∈ items.tail, item.1 ≠ []
  trailing : trailing.all isGap = true

instance (items : List (List Char × Listed)) (trailing : List Char) :
    Decidable (IsSpaced items trailing) :=
  decidable_of_iff
    ((∀ item ∈ items, item.1.all isGap = true) ∧ (∀ item ∈ items.tail, item.1 ≠ []) ∧
      trailing.all isGap = true)
    ⟨fun ⟨hgaps, hbetween, htrailing⟩ => ⟨hgaps, hbetween, htrailing⟩,
      fun h => ⟨h.gaps, h.between, h.trailing⟩⟩

/-- A token ends where listed packages follow, each behind a gap. -/
theorem endsToken_written {items : List (List Char × Listed)} {trailing : List Char}
    (hs : IsSpaced items trailing) (hall : ∀ item ∈ items, item.1 ≠ []) :
    EndsToken (written items ++ trailing) := by
  cases items with
  | nil =>
    intro c hc
    exact List.all_eq_true.mp hs.trailing c (List.mem_of_head? hc)
  | cons item rest =>
    have hends := endsToken_gaps (hs.gaps item List.mem_cons_self) (hall item List.mem_cons_self)
      (item.2.written ++ (written rest ++ trailing))
    simpa only [written, List.flatMap_cons, List.append_assoc] using hends

/-- Of packages that are listed the names are left, with all that stands between them. -/
theorem stripChars_written {items : List (List Char × Listed)} {trailing : List Char}
    (hs : IsSpaced items trailing) :
    stripChars (written items ++ trailing) =
      (items.flatMap fun item => item.1 ++ item.2.name.toList) ++ trailing := by
  induction items with
  | nil => exact stripChars_of_gaps hs.trailing
  | cons item rest ih =>
    obtain ⟨hgap, hgaps⟩ := List.forall_mem_cons.mp hs.gaps
    have hrest : IsSpaced rest trailing :=
      ⟨hgaps, fun next hnext => hs.between next (List.mem_of_mem_tail hnext), hs.trailing⟩
    have hstep := stripChars_listed hgap item.2 (endsToken_written hrest hs.between)
    rw [ih hrest] at hstep
    simpa only [written, List.flatMap_cons, List.append_assoc] using hstep

/-- The words of a requirement without its constraints are the names of the packages. -/
theorem split_strip_written {items : List (List Char × Listed)} {trailing : List Char}
    (hs : IsSpaced items trailing) :
    Words.split (strip (String.ofList (written items ++ trailing))) = items.map (·.2.name) := by
  have hblank : ∀ {gap : List Char}, gap.all isGap = true → gap.all isBlank = true :=
    fun hgap => List.all_eq_true.mpr fun c hc =>
      isBlank_of_isGap (List.all_eq_true.mp hgap c hc)
  have hread := @Words.words_scan_spelled String.toList
    (items.map fun item => (item.1, item.2.name)) trailing ?_ ?_ (hblank hs.trailing) {}
    ⟨rfl, rfl⟩ (.inl ⟨rfl, ?_⟩)
  · rw [strip, Words.split, String.toList_ofList, String.toList_ofList, stripChars_written hs]
    rw [List.flatMap_map, List.map_map] at hread
    exact hread
  · intro item hitem done
    obtain ⟨⟨gap, p⟩, -, rfl⟩ := List.mem_map.mp hitem
    have hplain := Words.scan_plain done [] p.name.toList fun c hc => p.plain_of_mem hc
    rwa [List.append_nil] at hplain
  · intro item hitem
    obtain ⟨⟨gap, p⟩, hmem, rfl⟩ := List.mem_map.mp hitem
    exact ⟨hblank (hs.gaps _ hmem), p.name_ne⟩
  · intro item hitem
    rw [← List.map_tail] at hitem
    obtain ⟨⟨gap, p⟩, hmem, rfl⟩ := List.mem_map.mp hitem
    exact hs.between _ hmem

/-! ## Asking -/

/-- To run a command for its output is to run that one and no other. -/
theorem ran_capture (m : Machine) (c : Command) (h : Host) :
    Leads (Host.capture m c) h fun _ h' => Ran [c] h h' := by
  unfold Host.capture
  rw [leads_bind, leads_note, leads_bind, leads_get]
  have hstart : Ran [c] h (h.noted (.running c)) := ⟨_, rfl, rfl⟩
  split
  · exact hstart
  · next o _ =>
    rw [leads_bind, leads_modify]
    refine hstart.trans ⟨_, settle_events _, List.filterMap_eq_nil_iff.mpr fun e he => ?_⟩
    obtain ⟨w, -, rfl⟩ := List.mem_map.mp he
    rfl

/-- To ask for packages is to run one command. -/
theorem ran_query (m : Machine) (c : Command) (h : Host) :
    Leads (query m c) h fun _ h' => Ran [c] h h' := by
  unfold query
  refine Leads.bind (ran_capture m c h) fun r h' hran => ?_
  split <;> exact hran

/-- A question has been answered by a query command that ended well. -/
def Granted (answer : Except RequirementError (ExitStatus × String)) : Prop :=
  ∃ status output, answer = .ok (status, output) ∧ status.success = true

/-- The query command is asked whether a requirement can be met, and then, if it can, for the flags
of what is left of it without its constraints. -/
theorem flagsFor_asks {m : Machine} {command : String} {base : Command} (requirement : String)
    (h : Host) (hbase : Command.ofText? command = some base) :
    Leads (flagsFor m command requirement) h fun r h' =>
      (Granted ((query m (base.withArgs (existsArgs requirement))).run h).1 →
        Ran [base.withArgs (existsArgs requirement), base.withArgs (flagsArgs requirement)] h h') ∧
      (¬ Granted ((query m (base.withArgs (existsArgs requirement))).run h).1 →
        Ran [base.withArgs (existsArgs requirement)] h h' ∧ ∀ flags, r ≠ .ok flags) := by
  obtain ⟨answer, h₁, hasked⟩ := exists_run (query m (base.withArgs (existsArgs requirement))) h
  have hran : Ran [base.withArgs (existsArgs requirement)] h h₁ :=
    (leads_of_run hasked _).mp (ran_query m _ h)
  unfold flagsFor
  rw [hbase]
  dsimp only
  rw [leads_bind, leads_of_run hasked, hasked]
  cases answer with
  | error e =>
    refine ⟨fun hgranted => ?_, fun _ => ⟨hran, fun flags hflags => by cases hflags⟩⟩
    obtain ⟨_, _, heq, -⟩ := hgranted
    cases heq
  | ok answer =>
    obtain ⟨status, output⟩ := answer
    dsimp only
    cases hsuccess : status.success with
    | false =>
      refine ⟨fun hgranted => ?_, fun _ => ⟨hran, fun flags hflags => by cases hflags⟩⟩
      obtain ⟨_, _, heq, hgood⟩ := hgranted
      cases heq
      rw [hsuccess] at hgood
      cases hgood
    | true =>
      refine Leads.bind (ran_query m _ h₁) fun r h₂ hran₂ => ?_
      have hboth := hran.trans hran₂
      have hgranted : Granted (.ok (status, output)) := ⟨status, output, rfl, hsuccess⟩
      split
      · exact ⟨fun _ => hboth, fun hnot => absurd hgranted hnot⟩
      · split
        · exact ⟨fun _ => hboth, fun hnot => absurd hgranted hnot⟩
        · exact ⟨fun _ => hboth, fun hnot => absurd hgranted hnot⟩

/-- There is nothing to remove from a requirement without its constraints. The query command is
asked about a requirement that lists packages as it stands, one argument; if it can be met, the
flags are asked for by the names of the packages, in order. -/
theorem flagsFor_asks_by_name :
    (∀ requirement, strip (strip requirement) = strip requirement) ∧
    ∀ (m : Machine) (command : String) (base : Command) (items : List (List Char × Listed))
      (trailing : List Char) (h : Host),
      Command.ofText? command = some base → IsSpaced items trailing →
      ∀ requirement asked named, requirement = String.ofList (written items ++ trailing) →
        asked = base.withArgs ["--print-errors", "--exists", requirement] →
        named = base.withArgs ("--cflags" :: "--libs" :: items.map (·.2.name)) →
        Leads (flagsFor m command requirement) h fun r h' =>
          (Granted ((query m asked).run h).1 → Ran [asked, named] h h') ∧
          (¬ Granted ((query m asked).run h).1 → Ran [asked] h h' ∧ ∀ flags, r ≠ .ok flags) := by
  refine ⟨fun requirement => ?_, ?_⟩
  · rw [strip, strip, String.toList_ofList, stripChars_stripChars]
  · rintro m command base items trailing h hbase hs _ _ _ rfl rfl rfl
    have hasks := flagsFor_asks (m := m) (String.ofList (written items ++ trailing)) h hbase
    rw [flagsArgs, split_strip_written hs] at hasks
    exact hasks

/-- A package with a version that looks like an operator, and one without a version. -/
def lookalikes : List (List Char × Listed) :=
  [([], { name := "gtk+-3.0"
          constraint? := some
            { before := ⟨[' '], rfl, by decide⟩
              operator := ">="
              between := ⟨['\t', ' '], rfl, by decide⟩
              version := "<"
              operator_mem := by decide
              isToken_version := by decide }
          name_ne := by decide
          name_plain := by decide
          name_not_mem := by decide }),
    ([' ', '\t'], { name := "zlib"
                    name_ne := by decide
                    name_plain := by decide
                    name_not_mem := by decide })]

/-- A machine with a query command that grants every requirement. -/
def registry : Machine where
  cwd := []
  environment := [("PATH", "/bin")]
  pid := 7
  time := 0
  accountHome := none
  execute _ fs := .ok { status := .exited 0, files := fs }

/-- The host of that query command. -/
def registryHost : Host where
  files := { entries := [(["bin"], .directory), (["bin", "pkg-config"], .file [] true)] }

/-- The operator behind the other one is a version, so both packages are asked for by name. -/
theorem flagsFor_asks_by_name_lookalikes :
    strip (strip "a < b < c") = strip "a < b < c" ∧
      Command.ofText? "pkg-config" = some { program := "pkg-config" } ∧
      IsSpaced lookalikes [] ∧
      Leads (flagsFor registry "pkg-config" "gtk+-3.0 >=\t < \tzlib") registryHost fun _ h' =>
        Ran [{ program := "pkg-config"
               args := ["--print-errors", "--exists", "gtk+-3.0 >=\t < \tzlib"] },
             { program := "pkg-config"
               args := ["--cflags", "--libs", "gtk+-3.0", "zlib"] }] registryHost h' := by
  obtain ⟨hidem, hasks⟩ := flagsFor_asks_by_name
  have hbase : Command.ofText? "pkg-config" = some { program := "pkg-config" } := by decide
  have hspaced : IsSpaced lookalikes [] := by decide
  refine ⟨hidem _, hbase, hspaced, ?_⟩
  have htext : "gtk+-3.0 >=\t < \tzlib" = String.ofList (written lookalikes ++ []) := by decide
  have hgranted : Granted ((query registry { program := "pkg-config", args :=
      ["--print-errors", "--exists", "gtk+-3.0 >=\t < \tzlib"] }).run registryHost).1 :=
    ⟨.exited 0, "", by decide +kernel, rfl⟩
  exact (hasks registry _ _ lookalikes [] registryHost hbase hspaced _ _ _ htext rfl rfl).1 hgranted

end CxxScript.Package

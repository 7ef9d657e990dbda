import CxxScript.Text.Blank

/-!
# Package requirements

A requirement lists packages, each with a version constraint or without one. Asking whether it can
be met takes the whole text; asking for flags takes the names alone. `strip` removes the
constraints, the leftmost first.
-/

set_option autoImplicit false

namespace CxxScript.Package

/-- What stands behind a comparison operator at the start of a text: `<=`, `>=`, `==`, `!=`, or
else `<` or `>`. -/
def operator? : List Char → Option (List Char)
  | c :: '=' :: rest => if "<>=!".toList.contains c then some rest else none
  | c :: rest => if c == '<' || c == '>' then some rest else none
  | [] => none

/-- The text behind its gaps, if there is at least one. -/
def gaps? (s : List Char) : Option (List Char) :=
  match s with
  | c :: _ => if Text.isGap c then some (s.dropWhile Text.isGap) else none
  | [] => none

/-- The text behind its first run of characters other than gaps, if there is one. -/
def token? (s : List Char) : Option (List Char) :=
  match s with
  | c :: _ => if Text.isGap c then none else some (s.dropWhile fun c => !Text.isGap c)
  | [] => none

/-- What stands behind a version constraint at the start of a text: gaps, an operator, gaps and a
version. -/
def constraint? (s : List Char) : Option (List Char) := do
  let s ← gaps? s
  let s ← operator? s
  let s ← gaps? s
  token? s

/-- Gaps take up text. -/
theorem gaps?_length {s r : List Char} (h : gaps? s = some r) : r.length < s.length := by
  unfold gaps? at h
  split at h
  · next c rest =>
    split at h
    · next hc =>
      cases h
      have := (List.dropWhile_sublist Text.isGap (l := rest)).length_le
      simp [hc]
      omega
    · cases h
  · cases h

/-- An operator takes up text. -/
theorem operator?_length {s r : List Char} (h : operator? s = some r) : r.length < s.length := by
  unfold operator? at h
  split at h
  · split at h
    · cases h; simp only [List.length_cons]; omega
    · cases h
  · split at h
    · cases h; simp only [List.length_cons]; omega
    · cases h
  · cases h

/-- A token takes up text. -/
theorem token?_length {s r : List Char} (h : token? s = some r) : r.length < s.length := by
  unfold token? at h
  split at h
  · next c rest =>
    split at h
    · cases h
    · next hc =>
      cases h
      have := (List.dropWhile_sublist (fun c => !Text.isGap c) (l := rest)).length_le
      simp [hc]
      omega
  · cases h

/-- A constraint takes up text. -/
theorem constraint?_length {s r : List Char} (h : constraint? s = some r) :
    r.length < s.length := by
  simp only [constraint?, Option.bind_eq_bind, Option.bind_eq_some_iff] at h
  obtain ⟨s₁, h₁, s₂, h₂, s₃, h₃, h₄⟩ := h
  have := gaps?_length h₁
  have := operator?_length h₂
  have := gaps?_length h₃
  have := token?_length h₄
  omega

/-- The characters that are left when every constraint is removed. -/
def stripChars (s : List Char) : List Char :=
  match s with
  | [] => []
  | c :: rest =>
    match _h : constraint? (c :: rest) with
    | some behind => stripChars behind
    | none => c :: stripChars rest
  termination_by s.length
  decreasing_by
  · exact constraint?_length _h
  · simp

/-- The requirement without its version constraints. -/
def strip (requirement : String) : String := String.ofList (stripChars requirement.toList)

end CxxScript.Package

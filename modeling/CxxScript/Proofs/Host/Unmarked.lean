import CxxScript.Proofs.Host.Confining
import CxxScript.Proofs.Host.Resolution

/-!
# Paths without a mark

Regular files that come under marked names are in the way of no path that has no mark, unless a link
leads to such a name. So as long as nothing else comes, and no directory either, `Apart`, a path
without a mark that leads somewhere has led there before, `canonical?_apart`, and what it leads to
could be read before if it can be read now, `exists_readable_of_apart`.
-/

set_option autoImplicit false

namespace CxxScript.Files

variable {mark name : String} {fs fs' : Files} {wd : WorkingDir} {p : Path} {at_ loc : Location}

/-- Whether a name has a mark in it. -/
def IsMarked (mark name : String) : Prop := ∃ before after, name = before ++ mark ++ after

/-- Whether no name that a text spells has a mark in it. -/
def Unmarked (mark text : String) : Prop := ∀ name ∈ names text, ¬ IsMarked mark name

/-- A name in a directory is marked when its location is. -/
theorem bears_append_iff : Location.Bears mark (at_ ++ [name]) ↔ IsMarked mark name := by
  constructor
  · rintro ⟨dir, before, after, heq⟩
    obtain ⟨-, hname⟩ := List.append_inj' heq rfl
    exact ⟨before, after, (List.cons.inj hname).1⟩
  · rintro ⟨before, after, rfl⟩
    exact ⟨at_, before, after, rfl⟩

/-- Whether a directory always stands in a directory. -/
def Rooted (fs : Files) : Prop :=
  ∀ at_, fs.get? at_ = some .directory → fs.get? at_.dropLast = some .directory

/-- Whether no link has a mark, neither in its name nor in its target. -/
structure LinksUnmarked (mark : String) (fs : Files) : Prop where
  names : fs.NoLinks mark
  targets : ∀ at_ target, fs.get? at_ = some (.link target) → Unmarked mark target

/-- From `fs` to `fs'` nothing has come but regular files under marked names, and no link leads to
such a name. -/
structure Apart (mark : String) (fs fs' : Files) : Prop where
  rooted : fs.Rooted
  links : LinksUnmarked mark fs
  confined : fs.Confined mark fs'
  directory : ∀ at_, fs'.get? at_ = some .directory → fs.get? at_ = some .directory

namespace Apart

/-- What stands under a name without a mark has been there before. -/
theorem entry (h : Apart mark fs fs') (hname : ¬ IsMarked mark name) {e : Entry}
    (he : fs'.get? (at_ ++ [name]) = some e) : fs.get? (at_ ++ [name]) = some e := by
  rcases h.confined.fresh he with hold | rfl | ⟨hbears, -⟩
  · exact hold
  · exact h.directory _ he
  · exact absurd (bears_append_iff.mp hbears) hname

/-- A walk takes a name without a mark as it would have taken it before, and what it goes to has
been there. -/
theorem turn (h : Apart mark fs fs') (hget : fs.get? at_ = some .directory)
    (hname : ¬ IsMarked mark name) {next : Location} (hturn : Turn fs' at_ name next) :
    Turn fs at_ name next ∧ (fs.get? next).isSome = true := by
  cases hturn with
  | stay hidle => exact ⟨.stay hidle, by rw [hget]; rfl⟩
  | leave hup => exact ⟨.leave hup, by rw [h.rooted at_ hget]; rfl⟩
  | enter entry hplain hshort hentry hlink =>
    have hold := h.entry hname hentry
    exact ⟨.enter entry hplain hshort hold hlink, by rw [hold]; rfl⟩

/-- A link with a name without a mark has been there before. -/
theorem detour (h : Apart mark fs fs') (hname : ¬ IsMarked mark name) {target : String}
    (hdetour : Detour fs' at_ name target) : Detour fs at_ name target :=
  ⟨hdetour.plain, hdetour.short, h.entry hname hdetour.link⟩

end Apart

section Walking

variable {along along' : Location → List String → Except Errno Found} {todo : List String}
  {e : Entry}

/-- A walk by names without a mark arrives where it arrived before, when this is so along links. -/
theorem walkWith_apart (h : Apart mark fs fs') (hthere : (fs.get? at_).isSome = true)
    (htodo : ∀ name ∈ todo, ¬ IsMarked mark name)
    (halong : ∀ at_ todo, (fs.get? at_).isSome = true → (∀ name ∈ todo, ¬ IsMarked mark name) →
      along' at_ todo = .ok (.present loc e) → ∃ e₀, along at_ todo = .ok (.present loc e₀))
    (hw : fs'.walkWith .target along' at_ todo = .ok (.present loc e)) :
    ∃ e₀, fs.walkWith .target along at_ todo = .ok (.present loc e₀) := by
  induction todo generalizing at_ with
  | nil =>
    obtain ⟨e₀, he₀⟩ := Option.isSome_iff_exists.mp hthere
    rw [walkWith] at hw
    split at hw
    · cases hw
      exact ⟨e₀, by rw [walkWith, he₀]⟩
    · cases hw
  | cons name rest ih =>
    obtain ⟨hname, hrest⟩ := List.forall_mem_cons.mp htodo
    obtain ⟨hget, ⟨next, hturn⟩ | ⟨target, hdetour⟩⟩ := walkWith_cons hw
    · have hold := h.directory at_ hget
      obtain ⟨hturn', hnext⟩ := h.turn hold hname hturn
      rw [walkWith_turn hget hturn] at hw
      rw [walkWith_turn hold hturn']
      exact ih hnext hrest hw
    · have hold := h.directory at_ hget
      have hdetour' := h.detour hname hdetour
      rw [walkWith_detour hget hdetour] at hw
      rw [walkWith_detour hold hdetour']
      refine halong _ _ ?_ ?_ hw
      · unfold startOf
        split
        · rw [get?_nil]
          rfl
        · exact hthere
      · intro x hx
        rcases List.mem_append.mp hx with hx | hx
        · exact h.links.targets _ target hdetour'.link x hx
        · exact hrest x hx

/-- A walk by names without a mark arrives where it arrived before. -/
theorem walk_apart (h : Apart mark fs fs') {links : Nat} (hthere : (fs.get? at_).isSome = true)
    (htodo : ∀ name ∈ todo, ¬ IsMarked mark name)
    (hw : fs'.walk .target links at_ todo = .ok (.present loc e)) :
    ∃ e₀, fs.walk .target links at_ todo = .ok (.present loc e₀) := by
  induction links generalizing at_ todo with
  | zero => exact walkWith_apart h hthere htodo (fun _ _ _ _ hnone => by cases hnone) hw
  | succ links ih =>
    exact walkWith_apart h hthere htodo (fun _ _ hthere htodo hw => ih hthere htodo hw) hw

end Walking

/-- A path without a mark that leads somewhere has led there before. -/
theorem canonical?_apart (h : Apart mark fs fs') (hgrows : fs.Grows fs') (hp : Unmarked mark p.text)
    (hc : fs'.canonical? wd p = some loc) : fs.canonical? wd p = some loc := by
  obtain ⟨hempty, hnul, start, e, hstart, hw⟩ := canonical?_eq_some_iff.mp hc
  have horigin : fs.origin? wd p = some start := by
    unfold origin? at hstart ⊢
    split at hstart
    · next habsolute => rwa [if_pos habsolute]
    · next hrelative =>
      rw [if_neg hrelative]
      obtain ⟨rfl, hgone, hget⟩ := workingLocation?_eq_some_iff.mp hstart
      rw [hgrows.isGone] at hgone
      exact workingLocation?_eq_some_iff.mpr ⟨rfl, hgone, h.directory _ hget⟩
  have hthere : (fs.get? start).isSome = true := by
    rw [get?_origin horigin]
    rfl
  obtain ⟨e₀, hw₀⟩ := walk_apart h hthere hp hw
  exact canonical?_eq_some_iff.mpr ⟨hempty, hnul, start, e₀, horigin, hw₀⟩

/-- Where the working directory is there, a path that can be read has a location, and something to
be read is there. -/
theorem canonical?_of_read (hwd : (fs.workingLocation? wd).isSome = true) {content : Bytes}
    (hr : fs.read wd p = .ok content) :
    ∃ loc e, fs.canonical? wd p = some loc ∧ fs.get? loc = some e ∧ e.isReadable = true := by
  obtain ⟨loc, e, hl, hget, he⟩ := read_eq_ok hr
  obtain ⟨hnul, hempty, -, hf⟩ := locate_eq_ok hl
  have hnone : (fs.workingLocation? wd).isNone = false := by
    rw [Option.isNone_eq_false_iff]
    exact hwd
  refine ⟨loc, e, ?_, hget, he⟩
  rw [canonical?, hempty, hnul, hnone, hf]
  simp

/-- What a path without a mark leads to could be read before if it can be read now. -/
theorem exists_readable_of_apart (h : Apart mark fs fs') (hgrows : fs.Grows fs')
    (hwd : (fs.workingLocation? wd).isSome = true) (hp : Unmarked mark p.text) {content : Bytes}
    (hr : fs'.read wd p = .ok content) :
    ∃ loc e, fs.canonical? wd p = some loc ∧ fs.get? loc = some e ∧ e.isReadable = true := by
  obtain ⟨start, hstart⟩ := Option.isSome_iff_exists.mp hwd
  have hwd' : (fs'.workingLocation? wd).isSome = true := by
    rw [workingLocation?_grows hgrows hstart]
    rfl
  obtain ⟨loc, e, hc, hget, he⟩ := canonical?_of_read hwd' hr
  have hc₀ := canonical?_apart h hgrows hp hc
  obtain ⟨-, -, _, e₀, -, hw⟩ := canonical?_eq_some_iff.mp hc₀
  have hget₀ := get?_of_walk hw
  refine ⟨loc, e₀, hc₀, hget₀, ?_⟩
  obtain ⟨e', hget', hbecomes⟩ := hgrows.kept hget₀
  rw [hget] at hget'
  cases hget'
  rcases hbecomes with rfl | ⟨hfile, -⟩
  · exact he
  · cases e₀ with
    | file content executable => rfl
    | directory => cases hfile
    | link target => cases hfile
    | device d => cases hfile

end CxxScript.Files

import CxxScript.Proofs.Host.Adding
import CxxScript.Proofs.Path.Normalizing

/-!
# Where a path leads

A walk to what a path leads to takes one name after the other: a `Turn` in a directory, or a
`Detour` along a link. Empty names and `.` make no difference to where it arrives, as long as it
arrives, `walk_thins`. So a path that leads to a file leads there when it has been normalized,
`canonical?_normalize`, and where no link is on the way it leads to the location that it collapses
to, `canonical?_linkless`.
-/

set_option autoImplicit false

namespace CxxScript.Files

open CxxScript.Path

/-! ## One name of a walk -/

/-- Where a walk to what a path leads to goes from a directory by a name that is no link. -/
inductive Turn (fs : Files) (at_ : Location) (name : String) : Location → Prop
  | stay (hidle : name = "" ∨ name = ".") : Turn fs at_ name at_
  | leave (hup : name = "..") : Turn fs at_ name at_.dropLast
  | enter (entry : Entry) (hplain : IsPlain name) (hshort : name.utf8ByteSize ≤ maxNameBytes)
      (hentry : fs.get? (at_ ++ [name]) = some entry) (hlink : ∀ target, entry ≠ .link target) :
      Turn fs at_ name (at_ ++ [name])

/-- Whether a walk goes from a directory along a link with some target. -/
structure Detour (fs : Files) (at_ : Location) (name target : String) : Prop where
  plain : IsPlain name
  short : name.utf8ByteSize ≤ maxNameBytes
  link : fs.get? (at_ ++ [name]) = some (.link target)

section Walking

variable {fs : Files} {along : Location → List String → Except Errno Found} {at_ loc : Location}
  {name : String} {rest todo todo' : List String} {e : Entry}

/-- A walk goes on from where a turn leads. -/
theorem walkWith_turn (hget : fs.get? at_ = some .directory) {next : Location}
    (hturn : Turn fs at_ name next) (rest : List String) :
    fs.walkWith .target along at_ (name :: rest) = fs.walkWith .target along next rest := by
  cases hturn with
  | stay hidle =>
    rw [walkWith, hget]
    simp [hidle]
  | leave hup =>
    rw [walkWith, hget]
    simp [hup]
  | enter entry hplain hshort hentry hlink =>
    exact walkWith_into hget (by simp [hplain.1, hplain.2.1]) hplain.2.2 (by simp)
      (Nat.not_lt.mpr hshort) hentry hlink

/-- A walk goes on along a link. -/
theorem walkWith_detour (hget : fs.get? at_ = some .directory) {target : String}
    (hdetour : Detour fs at_ name target) (rest : List String) :
    fs.walkWith .target along at_ (name :: rest) =
      along (startOf at_ target) (names target ++ rest) := by
  obtain ⟨⟨hempty, hhere, hup⟩, hshort, hlink⟩ := hdetour
  rw [walkWith, hget]
  simp [hempty, hhere, hup, hlink, Nat.not_lt.mpr hshort]

/-- A walk that arrives somewhere has taken its first name in one of the two ways. -/
theorem walkWith_cons
    (hw : fs.walkWith .target along at_ (name :: rest) = .ok (.present loc e)) :
    fs.get? at_ = some .directory ∧
      ((∃ next, Turn fs at_ name next) ∨ ∃ target, Detour fs at_ name target) := by
  rw [walkWith] at hw
  split at hw
  · cases hw
  · next hget =>
    refine ⟨hget, ?_⟩
    split at hw
    · next hidle => exact .inl ⟨_, .stay (by simpa using hidle)⟩
    · next hidle =>
      split at hw
      · next hup => exact .inl ⟨_, .leave hup⟩
      · next hup =>
        have hplain : IsPlain name := by
          rw [Bool.or_eq_true, not_or] at hidle
          simp only [decide_eq_true_eq] at hidle
          exact ⟨hidle.1, hidle.2, hup⟩
        rw [if_neg (by simp)] at hw
        split at hw
        · cases hw
        · next hlong =>
          have hshort := Nat.not_lt.mp hlong
          split at hw
          · split at hw <;> cases hw
          · next target hlink => exact .inr ⟨target, hplain, hshort, hlink⟩
          · next entry hnot hentry =>
            exact .inl ⟨_, .enter entry hplain hshort hentry fun target heq => hnot target heq⟩
  · cases hw

/-! ## Names that make no difference -/

/-- The second list of names is the first one without some of its empty names and `.`. -/
inductive Thins : List String → List String → Prop
  | nil : Thins [] []
  | keep (name : String) {todo todo' : List String} (h : Thins todo todo') :
      Thins (name :: todo) (name :: todo')
  | drop {name : String} {todo todo' : List String} (hidle : name = "" ∨ name = ".")
      (h : Thins todo todo') : Thins (name :: todo) todo'

/-- The same names may stand before both lists. -/
theorem Thins.append_left (h : Thins todo todo') (before : List String) :
    Thins (before ++ todo) (before ++ todo') := by
  induction before with
  | nil => exact h
  | cons name rest ih => exact .keep name ih

/-- A walk that arrives somewhere arrives there with fewer such names, when this is so along
links. -/
theorem walkWith_thins (ht : Thins todo todo')
    (halong : ∀ at_ todo todo', Thins todo todo' → along at_ todo = .ok (.present loc e) →
      along at_ todo' = .ok (.present loc e))
    (hw : fs.walkWith .target along at_ todo = .ok (.present loc e)) :
    fs.walkWith .target along at_ todo' = .ok (.present loc e) := by
  induction ht generalizing at_ with
  | nil => exact hw
  | drop hidle _ ih =>
    obtain ⟨hget, -⟩ := walkWith_cons hw
    rw [walkWith_turn hget (.stay hidle)] at hw
    exact ih hw
  | keep name h ih =>
    obtain ⟨hget, ⟨next, hturn⟩ | ⟨target, hdetour⟩⟩ := walkWith_cons hw
    · rw [walkWith_turn hget hturn] at hw ⊢
      exact ih hw
    · rw [walkWith_detour hget hdetour] at hw ⊢
      exact halong _ _ _ (h.append_left _) hw

/-- Empty names and `.` make no difference to where a walk arrives. -/
theorem walk_thins (ht : Thins todo todo') {links : Nat}
    (hw : fs.walk .target links at_ todo = .ok (.present loc e)) :
    fs.walk .target links at_ todo' = .ok (.present loc e) := by
  induction links generalizing at_ todo todo' with
  | zero => exact walkWith_thins ht (fun _ _ _ _ hnone => by cases hnone) hw
  | succ links ih => exact walkWith_thins ht (fun _ _ _ ht hw => ih ht hw) hw

/-- At a directory a walk may take any number of such names first. -/
theorem walk_idle (hget : fs.get? at_ = some .directory) {links : Nat} {idle : List String}
    (hidle : ∀ name ∈ idle, name = "" ∨ name = ".") (todo : List String) :
    fs.walk .target links at_ (idle ++ todo) = fs.walk .target links at_ todo := by
  induction idle with
  | nil => rfl
  | cons name rest ih =>
    obtain ⟨hname, hrest⟩ := List.forall_mem_cons.mp hidle
    rw [← ih hrest]
    cases links with
    | zero => exact walkWith_turn hget (.stay hname) _
    | succ links => exact walkWith_turn hget (.stay hname) _

/-! ## What locations are made of -/

/-- A plain name without slashes is the name of a file. -/
theorem isName_of_isPlain (hplain : IsPlain name) (hslash : '/' ∉ name.toList) :
    IsName name.toList := by
  obtain ⟨hempty, hhere, hup⟩ := hplain
  refine ⟨?_, ?_, ?_, hslash⟩
  · rwa [ne_eq, String.toList_eq_nil_iff]
  · exact fun heq => hhere (String.toList_inj.mp heq)
  · exact fun heq => hup (String.toList_inj.mp heq)

/-- There is no slash in the names that a text spells. -/
theorem not_mem_of_mem_names {text : String} (h : name ∈ names text) : '/' ∉ name.toList := by
  obtain ⟨n, hn, rfl⟩ := List.mem_map.mp h
  rw [String.toList_ofList]
  exact not_mem_of_mem_pieces hn

/-- A walk that starts at names of files and takes pieces of paths arrives at names of files, when
this is so along links. -/
theorem isNamed_walkWith (hat : IsNamed at_) (htodo : ∀ name ∈ todo, '/' ∉ name.toList)
    (halong : ∀ at_ todo, IsNamed at_ → (∀ name ∈ todo, '/' ∉ name.toList) →
      along at_ todo = .ok (.present loc e) → IsNamed loc)
    (hw : fs.walkWith .target along at_ todo = .ok (.present loc e)) : IsNamed loc := by
  induction todo generalizing at_ with
  | nil =>
    rw [walkWith] at hw
    split at hw
    · cases hw
      exact hat
    · cases hw
  | cons name rest ih =>
    obtain ⟨hname, hrest⟩ := List.forall_mem_cons.mp htodo
    obtain ⟨hget, ⟨next, hturn⟩ | ⟨target, hdetour⟩⟩ := walkWith_cons hw
    · rw [walkWith_turn hget hturn] at hw
      refine ih ?_ hrest hw
      cases hturn with
      | stay => exact hat
      | leave => exact fun x hx => hat x (List.dropLast_subset _ hx)
      | enter entry hplain =>
        intro x hx
        rcases List.mem_append.mp hx with hx | hx
        · exact hat x hx
        · rw [List.mem_singleton.mp hx]
          exact isName_of_isPlain hplain hname
    · rw [walkWith_detour hget hdetour] at hw
      refine halong _ _ ?_ ?_ hw
      · unfold startOf
        split
        · exact List.forall_mem_nil _
        · exact hat
      · intro x hx
        rcases List.mem_append.mp hx with hx | hx
        · exact not_mem_of_mem_names hx
        · exact hrest x hx

/-- A walk by names without slashes arrives at a location whose names are names of files. -/
theorem isNamed_walk {links : Nat} (hat : IsNamed at_) (htodo : ∀ name ∈ todo, '/' ∉ name.toList)
    (hw : fs.walk .target links at_ todo = .ok (.present loc e)) : IsNamed loc := by
  induction links generalizing at_ todo with
  | zero => exact isNamed_walkWith hat htodo (fun _ _ _ _ hnone => by cases hnone) hw
  | succ links ih =>
    exact isNamed_walkWith hat htodo (fun _ _ hat htodo hw => ih hat htodo hw) hw

/-! ## Files without links -/

/-- Whether there is no link at all. -/
def Linkless (fs : Files) : Prop := ∀ at_ target, fs.get? at_ ≠ some (.link target)

/-- Where no entry of the table is a link, there is none. -/
theorem linkless_of_entries (h : ∀ e ∈ fs.entries, ∀ target, e.2 ≠ .link target) :
    fs.Linkless := by
  intro at_ target hlink
  rcases mem_entries_of_get? hlink with rfl | hmem
  · rw [get?_nil] at hlink
    cases hlink
  · exact h (at_, .link target) hmem target rfl

/-- A turn by the text of a step is that step of a collapse. -/
theorem Turn.eq_collapseStep {next : Location} {s : List Char} {c : Component} (hs : c ∈ steps s)
    (hturn : Turn fs at_ c.text next) : next = collapseStep at_ c := by
  rcases eq_up_or_isName_of_mem_steps hs with rfl | ⟨n, hn, rfl⟩
  · cases hturn with
    | stay hidle => exact absurd hidle (by decide)
    | leave => rfl
    | enter entry hplain => exact absurd rfl hplain.2.2
  · obtain ⟨hempty, hhere, hup⟩ : IsPlain (String.ofList n) :=
      isPlain_of_isName (by rw [String.toList_ofList]; exact hn)
    cases hturn with
    | stay hidle => exact absurd hidle (not_or.mpr ⟨hempty, hhere⟩)
    | leave hleave => exact absurd hleave hup
    | enter => rfl

/-- Where there is no link, a walk by the texts of some steps arrives where they collapse to. -/
theorem walkWith_linkless (hfs : fs.Linkless) {cs : List Component}
    (hcs : ∀ c ∈ cs, ∃ s, c ∈ steps s)
    (hw : fs.walkWith .target along at_ (cs.map Component.text) = .ok (.present loc e)) :
    loc = cs.foldl collapseStep at_ := by
  induction cs generalizing at_ with
  | nil =>
    rw [List.map_nil, walkWith] at hw
    split at hw
    · cases hw
      rfl
    · cases hw
  | cons c rest ih =>
    obtain ⟨⟨s, hs⟩, hrest⟩ := List.forall_mem_cons.mp hcs
    rw [List.map_cons] at hw
    obtain ⟨hget, ⟨next, hturn⟩ | ⟨target, hdetour⟩⟩ := walkWith_cons hw
    · rw [walkWith_turn hget hturn, hturn.eq_collapseStep hs] at hw
      exact ih hrest hw
    · exact absurd hdetour.link (hfs _ _)

/-- Where there is no link, a walk arrives where its steps collapse to. -/
theorem walk_linkless (hfs : fs.Linkless) {links : Nat} {cs : List Component}
    (hcs : ∀ c ∈ cs, ∃ s, c ∈ steps s)
    (hw : fs.walk .target links at_ (cs.map Component.text) = .ok (.present loc e)) :
    loc = cs.foldl collapseStep at_ := by
  cases links with
  | zero => exact walkWith_linkless hfs hcs hw
  | succ links => exact walkWith_linkless hfs hcs hw

end Walking

/-! ## The location of a path -/

section Locating

variable {fs : Files} {wd : WorkingDir} {p : Path} {start loc : Location}

/-- Names that say nothing are left out of what a text spells. -/
theorem thins_names (text : String) :
    Thins (names text) ((steps text.toList).map Component.text) := by
  rw [names, steps]
  induction pieces text.toList with
  | nil => exact .nil
  | cons piece rest ih =>
    rw [List.map_cons, List.filterMap_cons]
    cases hpiece : Component.ofPiece? piece with
    | none =>
      refine .drop ?_ ih
      rw [Component.ofPiece?] at hpiece
      split at hpiece
      · next hidle =>
        rw [Bool.or_eq_true, decide_eq_true_eq, decide_eq_true_eq] at hidle
        rcases hidle with rfl | rfl
        · exact .inl rfl
        · exact .inr rfl
      · split at hpiece <;> cases hpiece
    | some c =>
      rw [List.map_cons, ← text_of_ofPiece? hpiece, String.ofList_toList]
      exact .keep _ ih

/-- A path has the location that it has when it is normalized. -/
theorem canonical?_normalize (h : fs.canonical? wd p = some loc) :
    fs.canonical? wd p.normalize = some loc := by
  obtain ⟨-, hnul, start, e, hstart, hw⟩ := canonical?_eq_some_iff.mp h
  obtain ⟨front, hfront, hpieces⟩ := pieces_normalize p
  have hidle : ∀ name ∈ front.map String.ofList, name = "" ∨ name = "." := by
    refine List.forall_mem_map.mpr fun n hn => ?_
    rcases hfront n hn with rfl | rfl
    · exact .inl rfl
    · exact .inr rfl
  have hnames : names p.normalize.text =
      front.map String.ofList ++ (steps p.text.toList).map Component.text := by
    rw [names, hpieces, List.map_append, List.map_map]
    simp
  refine canonical?_eq_some_iff.mpr ⟨text_normalize_ne p, fun hmem => hnul ?_, start, e, ?_, ?_⟩
  · obtain ⟨n, hn, hin⟩ := (exists_mem_pieces (by decide) _).mpr hmem
    rw [hpieces] at hn
    rcases List.mem_append.mp hn with hn | hn
    · rcases hfront n hn with rfl | rfl <;> simp at hin
    · obtain ⟨c, hc, rfl⟩ := List.mem_map.mp hn
      exact (exists_mem_pieces (by decide) _).mp ⟨_, text_mem_pieces hc, hin⟩
  · unfold origin?
    rw [isAbsolute_normalize]
    exact hstart
  · rw [hnames, walk_idle (get?_origin hstart) hidle]
    exact walk_thins (thins_names p.text) hw

/-- A path leads to a location whose names are names of files. -/
theorem isNamed_canonical? (hwd : IsNamed wd.at_) (h : fs.canonical? wd p = some loc) :
    IsNamed loc := by
  obtain ⟨-, -, start, e, hstart, hw⟩ := canonical?_eq_some_iff.mp h
  refine isNamed_walk ?_ (fun name => not_mem_of_mem_names) hw
  unfold origin? at hstart
  split at hstart
  · cases hstart
    exact List.forall_mem_nil _
  · obtain ⟨rfl, -, -⟩ := workingLocation?_eq_some_iff.mp hstart
    exact hwd

/-- Where there is no link, a path that has a location has the one that it collapses to. -/
theorem canonical?_linkless (hfs : fs.Linkless) (h : fs.canonical? wd p = some loc) :
    loc = collapse (p.lexicalComponents (fs.workingLocation? wd)) := by
  obtain ⟨hempty, -, start, e, hstart, hw⟩ := canonical?_eq_some_iff.mp h
  have hloc := walk_linkless hfs (fun c hc => ⟨_, hc⟩) (walk_thins (thins_names p.text) hw)
  rw [collapse_lexicalComponents_eq hempty, hloc]
  unfold origin? at hstart
  split at hstart
  · next habsolute =>
    cases hstart
    rw [if_pos habsolute]
  · next hrelative => rw [if_neg hrelative, hstart, Option.getD_some]

end Locating

end CxxScript.Files

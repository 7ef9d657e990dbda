import CxxScript.Proofs.Host.Leads

/-!
# The ways through the files

Paths are followed through directories and links; regular files only stand at their ends. As long
as directories, links and devices stay what they are, `Files.SameWays`, a path that led to a place
leads there whenever there is something at that place: `locate_ways`. So what has been written to a
path is what is read from it, `append_holds`. A name that no link has can be used for any purpose
alike, `walk_plain`, so what has been made under such a name can be removed under it.
-/

set_option autoImplicit false

namespace CxxScript

namespace Files

/-- Regular files may come, go and change, and directories may come; everything else stays. -/
structure SameWays (fs fs' : Files) : Prop where
  removed : fs'.removed = fs.removed
  kept : ∀ {at_ : Location} {e : Entry}, fs.get? at_ = some e → e.isFile = false →
    fs'.get? at_ = some e
  fresh : ∀ {at_ : Location} {e : Entry}, fs'.get? at_ = some e →
    e.isFile = true ∨ e = .directory ∨ fs.get? at_ = some e

namespace SameWays

/-- Nothing happens to the files. -/
theorem refl (fs : Files) : SameWays fs fs :=
  ⟨rfl, fun h _ => h, fun h => .inr (.inr h)⟩

/-- The ways stay the same from one stretch to the next. -/
theorem trans {a b c : Files} (h : SameWays a b) (h' : SameWays b c) : SameWays a c := by
  refine ⟨h'.removed.trans h.removed, fun he hf => h'.kept (h.kept he hf) hf, fun he => ?_⟩
  rcases h'.fresh he with hf | hd | hb
  · exact .inl hf
  · exact .inr (.inl hd)
  · exact h.fresh hb

/-- A link that is there was there. -/
theorem link {fs fs' : Files} (h : SameWays fs fs') {at_ : Location} {target : String}
    (hl : fs'.get? at_ = some (.link target)) : fs.get? at_ = some (.link target) := by
  rcases h.fresh hl with hf | hd | hb
  · cases hf
  · cases hd
  · exact hb

end SameWays

/-- Putting a regular file where there is none but a regular file. -/
theorem sameWays_set {fs : Files} {at_ : Location} {entry : Entry}
    (hold : ∀ e, fs.get? at_ = some e → e.isFile = true) (hnew : entry.isFile = true) :
    SameWays fs (fs.set at_ entry) := by
  have hat : at_ ≠ [] := by
    rintro rfl
    cases hold _ (get?_nil fs)
  refine ⟨rfl, fun {b e} hb hf => ?_, fun {b e} hb => ?_⟩
  · by_cases hn : b = []
    · subst hn
      rw [get?_nil] at hb ⊢
      exact hb
    · have hne : b ≠ at_ := by
        rintro rfl
        rw [hold e hb] at hf
        cases hf
      rw [get?_set fs at_ b entry hn, if_neg hne, hb]
  · by_cases hn : b = []
    · subst hn
      rw [get?_nil] at hb
      cases hb
      exact .inr (.inl rfl)
    · rw [get?_set fs at_ b entry hn] at hb
      split at hb
      · cases hb
        exact .inl hnew
      · exact .inr (.inr hb)

/-- Making a directory where there is nothing. -/
theorem sameWays_set_directory {fs : Files} {at_ : Location} (hnone : fs.get? at_ = none) :
    SameWays fs (fs.set at_ .directory) := by
  refine ⟨rfl, fun {b e} hb hf => ?_, fun {b e} hb => ?_⟩
  · by_cases hn : b = []
    · subst hn
      rw [get?_nil] at hb ⊢
      exact hb
    · have hne : b ≠ at_ := by
        rintro rfl
        rw [hnone] at hb
        cases hb
      rw [get?_set fs at_ b _ hn, if_neg hne, hb]
  · by_cases hn : b = []
    · subst hn
      rw [get?_nil] at hb
      cases hb
      exact .inr (.inl rfl)
    · rw [get?_set fs at_ b _ hn] at hb
      split at hb
      · cases hb
        exact .inr (.inl rfl)
      · exact .inr (.inr hb)

/-- Taking a regular file away. -/
theorem sameWays_erase {fs : Files} {at_ : Location}
    (hold : ∀ e, fs.get? at_ = some e → e.isFile = true) : SameWays fs (fs.erase at_) := by
  refine ⟨rfl, fun {b e} hb hf => ?_, fun {b e} hb => ?_⟩
  · by_cases hn : b = []
    · subst hn
      exact hb
    · have hne : b ≠ at_ := by
        rintro rfl
        rw [hold e hb] at hf
        cases hf
      rw [get?_erase fs at_ b hn, if_neg hne, hb]
  · obtain ⟨e', he', hbecomes⟩ := (grows_of_erase fs at_).kept hb
    rcases hbecomes with rfl | ⟨hf, -⟩
    · exact .inr (.inr he')
    · exact .inl hf

/-- What has been made has been put there. -/
theorem make_eq_set {fs fs' : Files} {at_ : Location} {entry : Entry}
    (h : fs.make at_ entry = .ok fs') : fs' = fs.set at_ entry := by
  unfold make at h
  split at h
  · cases h
  · cases h
  · cases h
  · cases h
    rfl

/-! ## Following paths -/

/-- The place that a path leads to. -/
def Found.place : Found → Location
  | .present at_ _ => at_
  | .missing at_ => at_

section Walking

variable {fs fs' : Files} {purpose purpose' : Purpose}
  {along along' : Location → List String → Except Errno Found} {at_ : Location}
  {todo : List String} {found : Found} {e : Entry}

/-- A walk that leads to a place leads there as long as the ways stay the same and something is at
that place, when this is so along links. -/
theorem walkWith_ways (h : SameWays fs fs')
    (hpurpose : purpose' = purpose ∨ purpose = .creation ∧ purpose' = .target)
    (halong : ∀ at_ todo found e, along at_ todo = .ok found → fs'.get? found.place = some e →
      along' at_ todo = .ok (.present found.place e))
    (hw : fs.walkWith purpose along at_ todo = .ok found)
    (he : fs'.get? found.place = some e) :
    fs'.walkWith purpose' along' at_ todo = .ok (.present found.place e) := by
  have hmake : ∀ rest : List String,
      ¬(decide (purpose = .creation) && !rest.isEmpty && rest.all String.isEmpty) = true →
      ¬(decide (purpose' = .creation) && !rest.isEmpty && rest.all String.isEmpty) = true := by
    rcases hpurpose with rfl | ⟨rfl, rfl⟩
    · exact fun _ h => h
    · intro rest _
      simp
  have hlast : ∀ rest : List String,
      ¬(rest.isEmpty && decide (purpose = .linkItself)) = true →
      ¬(rest.isEmpty && decide (purpose' = .linkItself)) = true := by
    rcases hpurpose with rfl | ⟨rfl, rfl⟩
    · exact fun _ h => h
    · intro rest _
      simp
  fun_induction walkWith fs purpose along at_ todo with
  | case1 at_ entry hget =>
    cases hw
    have hthere : fs'.get? at_ = some e := he
    rw [walkWith, hthere]
    rfl
  | case2 => cases hw
  | case3 => cases hw
  | case4 at_ name rest hget hskip ih =>
    rw [walkWith, h.kept hget rfl]
    simp only [hskip, if_true]
    exact ih hw
  | case5 at_ rest hget hskip ih =>
    rw [walkWith, h.kept hget rfl]
    simp only [hskip, Bool.false_eq_true, if_false, if_true]
    exact ih hw
  | case6 => cases hw
  | case7 => cases hw
  | case8 at_ name rest hget h₁ h₂ h₃ h₄ hnone hempty =>
    cases hw
    have hthere : fs'.get? (at_ ++ [name]) = some e := he
    have hlink : ∀ target, e = .link target → False := by
      rintro target rfl
      rw [h.link hthere] at hnone
      cases hnone
    rw [walkWith_into (h.kept hget rfl) h₁ h₂ (hmake rest h₃) h₄ hthere hlink,
      List.isEmpty_iff.mp hempty, walkWith, hthere]
    rfl
  | case9 => cases hw
  | case10 at_ name rest hget h₁ h₂ h₃ h₄ target hlink hlast' =>
    cases hw
    obtain rfl : purpose' = purpose := by
      rcases hpurpose with hp | ⟨hp, -⟩
      · exact hp
      · rw [hp, Bool.and_eq_true] at hlast'
        cases hlast'.2
    have hthere : fs'.get? (at_ ++ [name]) = some e := he
    have hkept := h.kept hlink rfl
    rw [hkept] at hthere
    cases hthere
    rw [walkWith, h.kept hget rfl]
    simp only [h₁, h₂, h₃, h₄, hkept, hlast', if_true, Bool.false_eq_true, if_false]
    rfl
  | case11 at_ name rest hget h₁ h₂ h₃ h₄ target hlink hlast' =>
    rw [walkWith, h.kept hget rfl]
    simp only [h₁, h₂, hmake rest h₃, h₄, h.kept hlink rfl, hlast rest hlast',
      Bool.false_eq_true, if_false]
    exact halong _ _ _ _ hw he
  | case12 at_ name rest hget h₁ h₂ h₃ h₄ entry hnot hentry ih =>
    by_cases hfile : entry.isFile = true
    · -- A regular file is the end of the walk.
      cases rest with
      | cons next rest =>
        rw [walkWith, hentry] at hw
        cases entry with
        | file content executable => cases hw
        | directory => cases hfile
        | link target => cases hfile
        | device d => cases hfile
      | nil =>
        rw [walkWith, hentry] at hw
        cases hw
        have hthere : fs'.get? (at_ ++ [name]) = some e := he
        have hlink : ∀ target, e = .link target → False := by
          rintro target rfl
          rw [h.link hthere] at hentry
          cases hentry
          cases hfile
        rw [walkWith_into (h.kept hget rfl) h₁ h₂ (hmake [] h₃) h₄ hthere hlink, walkWith, hthere]
        rfl
    · rw [Bool.not_eq_true] at hfile
      rw [walkWith_into (h.kept hget rfl) h₁ h₂ (hmake rest h₃) h₄ (h.kept hentry hfile) hnot]
      exact ih hw
  | case13 => cases hw

/-- A walk that leads to a place leads there as long as the ways stay the same and something is at
that place. -/
theorem walk_ways (h : SameWays fs fs')
    (hpurpose : purpose' = purpose ∨ purpose = .creation ∧ purpose' = .target) {links : Nat}
    (hw : fs.walk purpose links at_ todo = .ok found) (he : fs'.get? found.place = some e) :
    fs'.walk purpose' links at_ todo = .ok (.present found.place e) := by
  induction links generalizing at_ todo found e with
  | zero =>
    exact walkWith_ways h hpurpose (fun _ _ _ _ hnone _ => by cases hnone) hw he
  | succ links ih =>
    exact walkWith_ways h hpurpose (fun _ _ _ _ hw he => ih hw he) hw he

end Walking

/-- The way out of a directory that is gone goes by the removed directories alone. -/
theorem emerge_congr {fs fs' : Files} (h : fs'.removed = fs.removed) (wd : WorkingDir)
    (at_ : Location) (todo : List String) : fs'.emerge wd at_ todo = fs.emerge wd at_ todo := by
  have hgone : ∀ at_, fs'.isGone wd at_ = fs.isGone wd at_ := by
    intro at_
    rw [isGone, isGone, h]
  induction todo generalizing at_ with
  | nil => rfl
  | cons name rest ih => simp only [emerge, hgone, ih]

/-- A path text that leads to a place leads there as long as the ways stay the same and a regular
file is at that place. -/
theorem follow_ways {fs fs' : Files} (h : SameWays fs fs') {wd : WorkingDir}
    {purpose purpose' : Purpose}
    (hpurpose : purpose' = purpose ∨ purpose = .creation ∧ purpose' = .target) {text : String}
    {found : Found} {e : Entry} (hf : fs.follow wd purpose text = .ok found)
    (hplace : ∀ at_, found ≠ .present at_ .directory) (he : fs'.get? found.place = some e) :
    fs'.follow wd purpose' text = .ok (.present found.place e) := by
  unfold follow at hf ⊢
  by_cases habs : (⟨text⟩ : Path).isAbsolute = true
  · rw [if_pos habs] at hf ⊢
    exact walk_ways h hpurpose hf he
  · rw [if_neg habs] at hf ⊢
    rw [emerge_congr h.removed]
    rcases hem : fs.emerge wd wd.at_ (names text) with err | ⟨at_, todo⟩
    · rw [hem] at hf
      cases hf
    · rw [hem] at hf
      cases todo with
      | cons name rest => exact walk_ways h hpurpose hf he
      | nil =>
        have hgone : fs'.isGone wd at_ = fs.isGone wd at_ := by simp only [isGone, h.removed]
        dsimp only at hf ⊢
        rw [hgone]
        split at hf
        · cases hf
          exact absurd rfl (hplace at_)
        · next hnot =>
          rw [if_neg hnot]
          exact walk_ways h hpurpose hf he

/-- A path that leads to a place leads there as long as the ways stay the same and something other
than a directory was to be found there. -/
theorem locate_ways {fs fs' : Files} (h : SameWays fs fs') {wd : WorkingDir}
    {purpose purpose' : Purpose}
    (hpurpose : purpose' = purpose ∨ purpose = .creation ∧ purpose' = .target) {p : Path}
    {found : Found} {e : Entry} (hl : fs.locate wd purpose p = .ok found)
    (hplace : ∀ at_, found ≠ .present at_ .directory) (he : fs'.get? found.place = some e) :
    fs'.locate wd purpose' p = .ok (.present found.place e) := by
  obtain ⟨hnul, hempty, hlong, hf⟩ := locate_eq_ok hl
  have hf' := follow_ways h hpurpose hf hplace he
  rw [locate, if_neg (by simp only [hnul, Bool.false_eq_true, not_false_eq_true]),
    if_neg (by simp only [hempty, Bool.false_eq_true, not_false_eq_true]),
    if_neg (Nat.not_lt.mpr hlong), hf']

/-! ## Writing and reading -/

/-- The file a path leads to holds some bytes, or the path leads to a device, which holds none. -/
def Holds (fs : Files) (wd : WorkingDir) (p : Path) (bytes : Bytes) : Prop :=
  fs.read wd p = .ok bytes ∨ ∃ at_ d, fs.find wd p = .ok (at_, .device d)

/-- What a path leads to has been found there. -/
theorem find_of_locate {fs : Files} {wd : WorkingDir} {p : Path} {at_ : Location} {e : Entry}
    (h : fs.locate wd .target p = .ok (.present at_ e)) : fs.find wd p = .ok (at_, e) := by
  rw [find, h]

/-- What is found at the end of a path is what the path leads to. -/
theorem locate_of_find {fs : Files} {wd : WorkingDir} {p : Path} {at_ : Location} {e : Entry}
    (h : fs.find wd p = .ok (at_, e)) : fs.locate wd .target p = .ok (.present at_ e) := by
  unfold find at h
  split at h
  · next hl =>
    cases h
    exact hl
  · cases h
  · cases h

/-- What is found at the end of a path stands there, unless it is a directory that is gone. -/
theorem get?_of_find {fs : Files} {wd : WorkingDir} {p : Path} {at_ : Location} {e : Entry}
    (h : fs.find wd p = .ok (at_, e)) (he : e ≠ .directory) : fs.get? at_ = some e := by
  obtain ⟨-, -, -, hf⟩ := locate_eq_ok (locate_of_find h)
  exact get?_of_follow hf he

/-- Putting a regular file where a path leads to one or could make one: the path leads to it. -/
theorem find_set {fs : Files} {wd : WorkingDir} {purpose : Purpose} {p : Path} {found : Found}
    {entry : Entry} (hpurpose : purpose = .target ∨ purpose = .creation)
    (hl : fs.locate wd purpose p = .ok found) (hplace : ∀ at_, found ≠ .present at_ .directory)
    (hold : ∀ e, fs.get? found.place = some e → e.isFile = true) (hnew : entry.isFile = true) :
    (fs.set found.place entry).find wd p = .ok (found.place, entry) := by
  have hat : found.place ≠ [] := by
    intro hroot
    have hdir := hold .directory (by rw [hroot, get?_nil])
    cases hdir
  have hthere : (fs.set found.place entry).get? found.place = some entry := by
    rw [get?_set fs _ _ entry hat, if_pos rfl]
  have hpurpose' : Purpose.target = purpose ∨ purpose = .creation ∧ Purpose.target = .target :=
    hpurpose.imp Eq.symm fun hp => ⟨hp, rfl⟩
  exact find_of_locate (locate_ways (sameWays_set hold hnew) hpurpose' hl hplace hthere)

/-- A path that has been opened to be written from its start leads to a regular file without
content, or to a device. -/
theorem create_opened {fs fs' : Files} {wd : WorkingDir} {p : Path} {at_ : Location}
    (h : fs.create wd p = .ok (at_, fs')) :
    (∃ executable, fs'.find wd p = .ok (at_, .file [] executable)) ∨
      ∃ d, fs'.find wd p = .ok (at_, .device d) := by
  rcases create_eq_ok h with ⟨content, executable, hl, rfl⟩ | ⟨d, hl, -, rfl⟩ | ⟨hl, hm⟩
  · obtain ⟨-, -, -, hf⟩ := locate_eq_ok hl
    have hget : fs.get? at_ = some (.file content executable) := get?_of_follow hf (by simp)
    refine .inl ⟨executable, find_set (.inr rfl) hl (by simp) ?_ rfl⟩
    intro e he
    rw [Found.place, hget] at he
    cases he
    rfl
  · obtain ⟨-, -, -, hf⟩ := locate_eq_ok hl
    have hget := get?_of_follow hf (by simp)
    exact .inr ⟨d, find_of_locate (locate_ways (.refl _) (.inr ⟨rfl, rfl⟩) hl (by simp) hget)⟩
  · obtain rfl := make_eq_set hm
    refine .inl ⟨false, find_set (.inr rfl) hl (by simp) ?_ rfl⟩
    intro e he
    rw [Found.place, get?_of_locate_missing hl] at he
    cases he

/-- A path still leads to the regular file that bytes have been added to. -/
theorem find_append {fs fs' : Files} {wd : WorkingDir} {p : Path} {at_ : Location}
    {content bytes : Bytes} {executable : Bool}
    (hfind : fs.find wd p = .ok (at_, .file content executable))
    (h : fs.append at_ bytes = .ok fs') :
    fs'.find wd p = .ok (at_, .file (content ++ bytes) executable) := by
  have hl := locate_of_find hfind
  have hget : fs.get? at_ = some (.file content executable) := get?_of_find hfind (by simp)
  have hset : fs' = fs.set at_ (.file (content ++ bytes) executable) := by
    unfold append at h
    rw [hget] at h
    cases h
    rfl
  subst hset
  refine find_set (.inl rfl) hl (by simp) ?_ rfl
  intro e he
  rw [Found.place, hget] at he
  cases he
  rfl

/-- Bytes that have been added to the regular file a path leads to stand at its end. -/
theorem append_holds {fs fs' : Files} {wd : WorkingDir} {p : Path} {at_ : Location}
    {content bytes : Bytes} {executable : Bool}
    (hfind : fs.find wd p = .ok (at_, .file content executable))
    (h : fs.append at_ bytes = .ok fs') : fs'.read wd p = .ok (content ++ bytes) := by
  rw [read, find_append hfind h]

/-! ## Names that no link has -/

/-- Whether a name is one that a walk goes on by: it neither stays where it is nor leads up. -/
def IsPlain (name : String) : Prop := name ≠ "" ∧ name ≠ "." ∧ name ≠ ".."

/-- Whether no link has a name. -/
def Unlinked (fs : Files) (name : String) : Prop :=
  ∀ at_ target, fs.get? (at_ ++ [name]) ≠ some (.link target)

section Walking

variable {fs : Files} {purpose purpose' : Purpose}
  {along along' : Location → List String → Except Errno Found} {at_ : Location}
  {pre : List String} {last : String} {found : Found}

/-- A walk to a name that no link has leads to the same for every purpose, and to a place of that
name, when this is so along links. -/
theorem walkWith_plain (hlast : IsPlain last) (hlink : fs.Unlinked last)
    (halong : ∀ at_ pre found, along at_ (pre ++ [last]) = .ok found →
      along' at_ (pre ++ [last]) = .ok found ∧ ∃ dir, found.place = dir ++ [last])
    (hw : fs.walkWith purpose along at_ (pre ++ [last]) = .ok found) :
    fs.walkWith purpose' along' at_ (pre ++ [last]) = .ok found ∧
      ∃ dir, found.place = dir ++ [last] := by
  induction pre generalizing at_ with
  | nil =>
    have hskip : ¬(decide (last = "") || decide (last = ".")) = true := by
      simp [hlast.1, hlast.2.1]
    rw [List.nil_append, walkWith] at hw ⊢
    cases hget : fs.get? at_ with
    | none => rw [hget] at hw; cases hw
    | some entry =>
      rw [hget] at hw
      cases entry with
      | file content executable => cases hw
      | link target => cases hw
      | device d => cases hw
      | directory =>
        simp only [hskip, hlast.2.2, List.isEmpty_nil, Bool.not_true, Bool.and_false,
          Bool.false_and, Bool.false_eq_true, if_false, if_true] at hw ⊢
        split at hw
        · cases hw
        · next hlong =>
          rw [if_neg hlong]
          cases hentry : fs.get? (at_ ++ [last]) with
          | none =>
            rw [hentry] at hw
            cases hw
            exact ⟨rfl, at_, rfl⟩
          | some entry =>
            rw [hentry] at hw
            cases entry with
            | link target => exact absurd hentry (hlink at_ target)
            | file content executable =>
              rw [walkWith, hentry] at hw
              rw [walkWith, hentry]
              cases hw
              exact ⟨rfl, at_, rfl⟩
            | directory =>
              rw [walkWith, hentry] at hw
              rw [walkWith, hentry]
              cases hw
              exact ⟨rfl, at_, rfl⟩
            | device d =>
              rw [walkWith, hentry] at hw
              rw [walkWith, hentry]
              cases hw
              exact ⟨rfl, at_, rfl⟩
  | cons name rest ih =>
    have hmore : (rest ++ [last]).isEmpty = false := by simp
    have hnot : (rest ++ [last]).all String.isEmpty = false := by
      simp [hlast.1]
    rw [List.cons_append, walkWith] at hw ⊢
    cases hget : fs.get? at_ with
    | none => rw [hget] at hw; cases hw
    | some entry =>
      rw [hget] at hw
      cases entry with
      | file content executable => cases hw
      | link target => cases hw
      | device d => cases hw
      | directory =>
        dsimp only at hw ⊢
        split at hw
        · next hskip =>
          rw [if_pos hskip]
          exact ih hw
        · next hskip =>
          rw [if_neg hskip]
          split at hw
          · next hup =>
            rw [if_pos hup]
            exact ih hw
          · next hup =>
            simp only [hup, hmore, hnot, Bool.and_false, Bool.false_and, Bool.false_eq_true,
              if_false] at hw ⊢
            split at hw
            · cases hw
            · next hlong =>
              rw [if_neg hlong]
              cases hentry : fs.get? (at_ ++ [name]) with
              | none => rw [hentry] at hw; cases hw
              | some entry =>
                rw [hentry] at hw
                cases entry with
                | link target =>
                  dsimp only at hw ⊢
                  rw [← List.append_assoc] at hw ⊢
                  exact halong _ _ _ hw
                | file content executable => exact ih hw
                | directory => exact ih hw
                | device d => exact ih hw

/-- A walk to a name that no link has leads to the same for every purpose, and to a place of that
name. -/
theorem walk_plain (hlast : IsPlain last) (hlink : fs.Unlinked last) {links : Nat}
    (hw : fs.walk purpose links at_ (pre ++ [last]) = .ok found) :
    fs.walk purpose' links at_ (pre ++ [last]) = .ok found ∧
      ∃ dir, found.place = dir ++ [last] := by
  induction links generalizing at_ pre found with
  | zero => exact walkWith_plain hlast hlink (fun _ _ _ hnone => by cases hnone) hw
  | succ links ih => exact walkWith_plain hlast hlink (fun _ _ _ hw => ih hw) hw

end Walking

end Files

end CxxScript

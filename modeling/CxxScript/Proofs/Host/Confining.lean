import CxxScript.Proofs.Host.Adding

/-!
# Changes that keep to marked names

A mark is a text by which the names of some files are told from all others. As long as no link has
such a name, whatever is opened, written or removed under a path that ends in one is a file of that
name, `locate_bears`. So from one state of the files to the next nothing happens to what has no such
name, and all that has come is a directory or a regular file with such a name: `Confined`. In
particular no link of such a name has come, `Confined.noLinks`.
-/

set_option autoImplicit false

namespace CxxScript

/-- Whether a path ends in a name with a mark. -/
def Path.Bears (mark : String) (p : Path) : Prop :=
  ∃ before after, p.EndsIn (before ++ mark ++ after)

/-- Whether the last name of a location has a mark. -/
def Location.Bears (mark : String) (at_ : Location) : Prop :=
  ∃ dir before after, at_ = dir ++ [before ++ mark ++ after]

namespace Files

variable {wd : WorkingDir} {mark : String} {fs fs' fs'' : Files} {p : Path} {at_ : Location}

/-- Whether no link has a name with a mark. -/
def NoLinks (fs : Files) (mark : String) : Prop :=
  ∀ before after, fs.Unlinked (before ++ mark ++ after)

/-- A path that ends in a marked name leads to such a name. -/
theorem locate_bears (hp : p.Bears mark) (hlinks : fs.NoLinks mark) {purpose : Purpose}
    {found : Found} (hl : fs.locate wd purpose p = .ok found) :
    Location.Bears mark found.place := by
  obtain ⟨before, after, hends⟩ := hp
  obtain ⟨-, dir, hplace⟩ := locate_endsIn hends (hlinks before after) hl purpose
  exact ⟨dir, before, after, hplace⟩

/-- There is no slash at the end of a path that ends in a marked name. -/
theorem bare_of_bears (hp : p.Bears mark) : bare p = p := by
  obtain ⟨before, after, hends⟩ := hp
  exact bare_of_endsIn hends

/-- Nothing has happened to what has no marked name, and all that has come is a directory or a
regular file with a marked name. -/
structure Confined (mark : String) (fs fs' : Files) : Prop where
  kept : ∀ {at_ : Location} {e : Entry}, ¬ Location.Bears mark at_ → fs.get? at_ = some e →
    fs'.get? at_ = some e
  fresh : ∀ {at_ : Location} {e : Entry}, fs'.get? at_ = some e → fs.get? at_ = some e ∨
    e = .directory ∨ (Location.Bears mark at_ ∧ e.isFile = true)

namespace Confined

/-- Nothing happens at all. -/
theorem refl (mark : String) (fs : Files) : Confined mark fs fs := ⟨fun _ h => h, .inl⟩

/-- One stretch after the other. -/
theorem trans (h : Confined mark fs fs') (h' : Confined mark fs' fs'') : Confined mark fs fs'' :=
  ⟨fun hat he => h'.kept hat (h.kept hat he),
    fun he => (h'.fresh he).elim (fun hmid => h.fresh hmid) .inr⟩

/-- No link with a marked name has come. -/
theorem noLinks (h : Confined mark fs fs') (hlinks : fs.NoLinks mark) : fs'.NoLinks mark := by
  intro before after dir target hlink
  rcases h.fresh hlink with hold | hdir | ⟨-, hfile⟩
  · exact hlinks before after dir target hold
  · cases hdir
  · cases hfile

end Confined

/-- The root has no name. -/
theorem ne_nil_of_bears (hat : Location.Bears mark at_) : at_ ≠ [] := by
  obtain ⟨dir, before, after, rfl⟩ := hat
  exact List.append_ne_nil_of_right_ne_nil dir (List.cons_ne_nil _ _)

/-- Something happens at one location alone, under a marked name or where there was nothing. -/
theorem confined_at (hsame : ∀ b, b ≠ [] → b ≠ at_ → fs'.get? b = fs.get? b)
    (hwhere : Location.Bears mark at_ ∨ fs.get? at_ = none)
    (hnew : ∀ e, fs'.get? at_ = some e →
      e = .directory ∨ (Location.Bears mark at_ ∧ e.isFile = true)) : Confined mark fs fs' := by
  refine ⟨fun {b e} hb he => ?_, fun {b e} he => ?_⟩
  · by_cases hn : b = []
    · subst hn
      rwa [get?_nil] at he ⊢
    · have hne : b ≠ at_ := by
        rintro rfl
        rcases hwhere with hat | hnone
        · exact hb hat
        · rw [hnone] at he
          cases he
      rw [hsame b hn hne, he]
  · by_cases hn : b = []
    · subst hn
      rw [get?_nil] at he ⊢
      exact .inl he
    · by_cases heq : b = at_
      · subst heq
        exact .inr (hnew e he)
      · exact .inl ((hsame b hn heq).symm.trans he)

/-- A regular file is put under a marked name. -/
theorem confined_set (hat : Location.Bears mark at_) {entry : Entry}
    (hfile : entry.isFile = true) : Confined mark fs (fs.set at_ entry) := by
  refine confined_at (fun b hn hne => ?_) (.inl hat) fun e he => ?_
  · rw [get?_set fs at_ b entry hn, if_neg hne]
  · rw [get?_set fs at_ at_ entry (ne_nil_of_bears hat), if_pos rfl] at he
    cases he
    exact .inr ⟨hat, hfile⟩

/-- A directory is made where there is nothing. -/
theorem confined_make_directory (hnone : fs.get? at_ = none)
    (hm : fs.make at_ .directory = .ok fs') : Confined mark fs fs' := by
  obtain rfl := make_eq_set hm
  have hat : at_ ≠ [] := by
    rintro rfl
    rw [get?_nil] at hnone
    cases hnone
  refine confined_at (fun b hn hne => ?_) (.inr hnone) fun e he => ?_
  · rw [get?_set fs at_ b _ hn, if_neg hne]
  · rw [get?_set fs at_ at_ _ hat, if_pos rfl] at he
    exact .inl (Option.some.inj he).symm

/-- What has a marked name is taken away. -/
theorem confined_erase (hat : Location.Bears mark at_) : Confined mark fs (fs.erase at_) := by
  refine confined_at (fun b hn hne => ?_) (.inl hat) fun e he => ?_
  · rw [get?_erase fs at_ b hn, if_neg hne]
  · rw [get?_erase fs at_ at_ (ne_nil_of_bears hat), if_pos rfl] at he
    cases he

/-- Opening a file under a marked name for appending. -/
theorem confined_openAppend (hp : p.Bears mark) (hlinks : fs.NoLinks mark)
    (h : fs.openAppend wd p = .ok (at_, fs')) : Confined mark fs fs' := by
  rcases openAppend_eq_ok h with ⟨e, -, -, rfl⟩ | ⟨hl, hm⟩
  · exact .refl mark _
  · obtain rfl := make_eq_set hm
    exact confined_set (locate_bears hp hlinks hl) rfl

/-- Opening a file under a marked name to be written from its start. -/
theorem confined_create (hp : p.Bears mark) (hlinks : fs.NoLinks mark)
    (h : fs.create wd p = .ok (at_, fs')) :
    Confined mark fs fs' ∧ Location.Bears mark at_ := by
  rcases create_eq_ok h with ⟨content, executable, hl, rfl⟩ | ⟨d, hl, -, rfl⟩ | ⟨hl, hm⟩
  · have hat := locate_bears hp hlinks hl
    exact ⟨confined_set hat rfl, hat⟩
  · exact ⟨.refl mark _, locate_bears hp hlinks hl⟩
  · have hat := locate_bears hp hlinks hl
    obtain rfl := make_eq_set hm
    exact ⟨confined_set hat rfl, hat⟩

/-- Adding bytes to what has been opened under a marked name. -/
theorem confined_append (hat : Location.Bears mark at_) {bytes : Bytes}
    (h : fs.append at_ bytes = .ok fs') : Confined mark fs fs' := by
  unfold append at h
  split at h
  · cases h
    exact confined_set hat rfl
  · split at h
    · cases h
    · cases h
      exact .refl mark fs

/-- Making a directory together with those above it. -/
theorem confined_makeDirectories (mark : String) (fs : Files) (wd : WorkingDir) (p : Path) :
    Confined mark fs (fs.makeDirectories wd p).2 :=
  makeDirectories_keeps (Confined.refl mark) Confined.trans confined_make_directory fs wd p

/-- Removing a file under a marked name. -/
theorem confined_remove (hp : p.Bears mark) (hlinks : fs.NoLinks mark)
    (h : fs.remove wd p = .ok fs') : Confined mark fs fs' := by
  obtain ⟨loc, e, hl, -, rfl⟩ := remove_eq_ok h
  rw [bare_of_bears hp] at hl
  exact confined_erase (locate_bears hp hlinks hl)

end Files

namespace Host

variable {m : Machine} {mark : String} {h h' h'' : Host} {p : Path}

/-- From `h` to `h'` the files have grown, and nothing has happened but under marked names if no
link had one. -/
def Confines (mark : String) (h h' : Host) : Prop :=
  h.files.Grows h'.files ∧ (h.files.NoLinks mark → h.files.Confined mark h'.files)

namespace Confines

/-- The files are as they were. -/
theorem of_files (hfiles : h'.files = h.files) : Confines mark h h' := by
  rw [Confines, hfiles]
  exact ⟨.refl _, fun _ => .refl _ _⟩

/-- One stretch after the other. -/
theorem trans (hc : Confines mark h h') (hc' : Confines mark h' h'') : Confines mark h h'' :=
  ⟨hc.1.trans hc'.1, fun hlinks =>
    (hc.2 hlinks).trans (hc'.2 ((hc.2 hlinks).noLinks hlinks))⟩

end Confines

/-- Opening a file under a marked name to be written from its start. -/
theorem confines_create (hp : p.Bears mark) (h : Host) :
    Leads (create m p) h fun r h' => Confines mark h h' ∧
      (h.files.NoLinks mark → ∀ at_, r = .ok at_ → Location.Bears mark at_) := by
  unfold create
  cases hs : h.files.create m.cwd p with
  | error e =>
    rw [leads_of_run (run_change_error hs)]
    exact ⟨.of_files rfl, fun _ at_ hr => by cases hr⟩
  | ok r =>
    rw [leads_of_run (run_change_ok hs)]
    refine ⟨⟨Files.grows_create hs, fun hlinks => (Files.confined_create hp hlinks hs).1⟩, ?_⟩
    rintro hlinks at_ ⟨⟩
    exact (Files.confined_create hp hlinks hs).2

/-- Adding bytes to what has been opened. -/
theorem confines_append (at_ : Location) (bytes : Bytes) (h : Host) :
    Leads (append at_ bytes) h fun _ h' => h.files.Grows h'.files ∧
      (Location.Bears mark at_ → h.files.Confined mark h'.files) := by
  unfold append
  rw [leads_bind, leads_get]
  split
  · split
    · exact ⟨.refl _, fun _ => .refl _ _⟩
    · exact ⟨.refl _, fun _ => .refl _ _⟩
  · cases ha : h.files.append at_ bytes with
    | error e =>
      rw [leads_of_run (run_change_error (by rw [ha]; rfl))]
      exact ⟨.refl _, fun _ => .refl _ _⟩
    | ok fs =>
      rw [leads_of_run (run_change_ok (r := ((), fs)) (by rw [ha]; rfl))]
      exact ⟨Files.grows_append ha, fun hat => Files.confined_append hat ha⟩

end Host

end CxxScript

import CxxScript.Proofs.Build.Copying

/-!
# Files that can be opened

Where a path leads to a regular file, or to a device that can be opened, it can be opened again and
again: `Files.Ready`. Opening for appending changes nothing there, opening to write from the start
empties what is there, and what is then added stands alone. Whatever has been opened for appending
is ready, `Files.openAppend_ready`.
-/

set_option autoImplicit false

namespace CxxScript

open Host

/-- What a regular file becomes that is emptied; a device stays. -/
def Entry.emptied : Entry → Entry
  | .file _ executable => .file [] executable
  | e => e

/-- What a regular file becomes that bytes are added to; a device stays. -/
def Entry.extended (bytes : Bytes) : Entry → Entry
  | .file content executable => .file (content ++ bytes) executable
  | e => e

/-- The outcome of adding bytes to a regular file or to a device. -/
def Entry.taking (bytes : Bytes) : Entry → Except IoError Unit
  | .device d =>
    match bytes, d.refusal? with
    | _ :: _, some e => .error (.system e)
    | _, _ => .ok ()
  | _ => .ok ()

/-- A file to which bytes are added is emptied as it was before. -/
theorem Entry.emptied_extended (bytes : Bytes) (e : Entry) :
    (e.emptied.extended bytes).emptied = e.emptied := by
  cases e <;> rfl

namespace Files

/-- Putting a regular file where a path that is to be opened leads to one, or could make one: the
path leads to it. -/
theorem locate_set {fs : Files} {wd : WorkingDir} {p : Path} {found : Found} {entry : Entry}
    (hl : fs.locate wd .creation p = .ok found) (hplace : ∀ at_, found ≠ .present at_ .directory)
    (hold : ∀ e, fs.get? found.place = some e → e.isFile = true) (hnew : entry.isFile = true) :
    (fs.set found.place entry).locate wd .creation p = .ok (.present found.place entry) := by
  have hat : found.place ≠ [] := by
    intro hroot
    have hdir := hold .directory (by rw [hroot, get?_nil])
    cases hdir
  have hthere : (fs.set found.place entry).get? found.place = some entry := by
    rw [get?_set fs _ _ entry hat, if_pos rfl]
  exact locate_ways (sameWays_set hold hnew) (.inl rfl) hl hplace hthere

/-- A path leads to a regular file, or to a device that can be opened. -/
structure Ready (fs : Files) (wd : WorkingDir) (p : Path) (at_ : Location) (e : Entry) :
    Prop where
  locate : fs.locate wd .creation p = .ok (.present at_ e)
  opens : e.isFile = true ∨ ∃ d, e = .device d ∧ d.opening = .ok ()

namespace Ready

variable {fs fs' : Files} {wd : WorkingDir} {p : Path} {at_ : Location} {e : Entry}

/-- What can be opened is no directory. -/
theorem not_directory (hr : fs.Ready wd p at_ e) (at_' : Location) :
    Found.present at_ e ≠ .present at_' .directory := by
  rintro ⟨⟩
  rcases hr.opens with hfile | ⟨d, hd, -⟩
  · cases hfile
  · cases hd

/-- What is ready to be opened stands at its location. -/
theorem get? (hr : fs.Ready wd p at_ e) : fs.get? at_ = some e := by
  obtain ⟨-, -, -, hf⟩ := locate_eq_ok hr.locate
  refine get?_of_follow hf ?_
  rintro rfl
  exact hr.not_directory at_ rfl

/-- What is ready to be opened is found. -/
theorem find (hr : fs.Ready wd p at_ e) : fs.find wd p = .ok (at_, e) :=
  find_of_locate
    (locate_ways (.refl fs) (.inr ⟨rfl, rfl⟩) hr.locate hr.not_directory hr.get?)

/-- Where a path leads to the same in other files, it can be opened there too. -/
theorem of_locate (hr : fs.Ready wd p at_ e)
    (hsame : fs'.locate wd .creation p = fs.locate wd .creation p) : fs'.Ready wd p at_ e :=
  ⟨hsame.trans hr.locate, hr.opens⟩

/-- A regular file that takes the place of another one is found at the same path. -/
theorem set {new : Entry} (hr : fs.Ready wd p at_ e) (hfile : e.isFile = true)
    (hnew : new.isFile = true) : (fs.set at_ new).Ready wd p at_ new := by
  refine ⟨locate_set hr.locate hr.not_directory (fun e' he' => ?_) hnew, .inl hnew⟩
  rw [Found.place, hr.get?] at he'
  cases he'
  exact hfile

/-- To open such a file for appending changes nothing. -/
theorem openAppend (hr : fs.Ready wd p at_ e) : fs.openAppend wd p = .ok (at_, fs) := by
  rw [Files.openAppend, hr.locate]
  rcases hr.opens with hfile | ⟨d, rfl, hd⟩
  · cases e with
    | file content executable => rfl
    | _ => cases hfile
  · simp only [hd, Except.map]

/-- Opened to be written from its start it is there without content. -/
theorem create (hr : fs.Ready wd p at_ e) :
    ∃ fs', fs.create wd p = .ok (at_, fs') ∧ fs'.Ready wd p at_ e.emptied := by
  rw [Files.create, hr.locate]
  rcases hr.opens with hfile | ⟨d, rfl, hd⟩
  · cases e with
    | file content executable => exact ⟨_, rfl, hr.set rfl rfl⟩
    | _ => cases hfile
  · exact ⟨fs, by simp only [hd, Except.map], hr⟩

/-- Bytes that are added to it stand at its end, unless it is a device. -/
theorem append {h : Host} (hr : h.files.Ready wd p at_ e) (bytes : Bytes) :
    Leads (Host.append at_ bytes) h fun r h' =>
      r = e.taking bytes ∧ h'.files.Ready wd p at_ (e.extended bytes) := by
  unfold Host.append
  rw [leads_bind, leads_get, hr.get?]
  rcases hr.opens with hfile | ⟨d, rfl, -⟩
  · cases e with
    | file content executable =>
      have hstep : appending at_ bytes h.files =
          .ok ((), h.files.set at_ (.file (content ++ bytes) executable)) := by
        unfold appending Files.append
        rw [hr.get?]
        rfl
      exact (leads_of_run (run_change_ok hstep) _).mpr ⟨rfl, hr.set rfl rfl⟩
    | _ => cases hfile
  · have hstep : appending at_ bytes h.files =
        ((Entry.device d).taking bytes).map fun _ => ((), h.files) := by
      have hrefusal : h.files.refusal? at_ = d.refusal? := by rw [refusal?, hr.get?]
      unfold appending Files.append Entry.taking
      rw [hr.get?]
      dsimp only
      rw [hrefusal]
      cases bytes <;> cases d.refusal? <;> rfl
    split
    · next n heq =>
      cases heq
      have htaking : (Entry.device (.descriptor n)).taking bytes = .ok () := by
        cases bytes <;> rfl
      split <;> exact ⟨htaking.symm, hr⟩
    · cases htaking : (Entry.device d).taking bytes with
      | error cause =>
        rw [htaking] at hstep
        exact (leads_of_run (run_change_error hstep) _).mpr ⟨rfl, hr⟩
      | ok _ =>
        rw [htaking] at hstep
        exact (leads_of_run (run_change_ok hstep) _).mpr ⟨rfl, hr⟩

end Ready

/-- A path that has been opened for appending can be opened. -/
theorem openAppend_ready {fs fs' : Files} {wd : WorkingDir} {p : Path} {at_ : Location}
    (h : fs.openAppend wd p = .ok (at_, fs')) : ∃ e, fs'.Ready wd p at_ e := by
  rcases openAppend_eq_ok h with ⟨e, hl, hopens, rfl⟩ | ⟨hl, hm⟩
  · exact ⟨e, hl, hopens⟩
  · obtain rfl := make_eq_set hm
    refine ⟨_, locate_set hl (by simp) (fun e he => ?_) rfl, .inl rfl⟩
    rw [Found.place, get?_of_locate_missing hl] at he
    cases he

end Files

end CxxScript

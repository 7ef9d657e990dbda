import CxxScript.Proofs.Host.Ways
import CxxScript.Proofs.Path.Split

/-!
# Which regular files have come

What the tool adds to the files of a machine it adds under paths that it knows. `Files.Adds` says so
of two states of the files: the ways are the same in both, and every regular file that is new is
found at one of some paths. It goes on from one stretch of work to the next, `Adds.trans`, and a
path under which a file has been removed is no longer one of them, `Adds.remove`, provided that the
path ends in a name that no link has.

A program that the tool starts for a script may change the ways: it may take directories and links
away. `Files.Brings` says of the new regular files alone where they are found, and goes on through
such a change, `Brings.spares`, as long as the paths to them still lead there, `Files.Spares`.
-/

set_option autoImplicit false

namespace CxxScript

/-! ## Paths that end in a name -/

/-- Whether a path ends in a name: it is that name or stands with a slash before it. -/
def Path.EndsIn (p : Path) (name : String) : Prop :=
  ∃ lead, p.text.toList = lead ++ name.toList ∧ Path.IsLead lead ∧ Path.IsName name.toList

namespace Files

open CxxScript.Path

/-- A piece that is a name is gone on by. -/
theorem isPlain_of_isName {name : String} (h : IsName name.toList) : IsPlain name := by
  refine ⟨?_, ?_, ?_⟩
  · rintro rfl
    exact h.ne_nil rfl
  · rintro rfl
    exact h.ne_here rfl
  · rintro rfl
    exact h.ne_up rfl

/-- The last of the names of a path is the one that it ends in. -/
theorem names_of_endsIn {p : Path} {name : String} (h : p.EndsIn name) :
    ∃ pre, names p.text = pre ++ [name] := by
  obtain ⟨lead, htext, hlead, hname⟩ := h
  rcases hlead with rfl | ⟨dir, rfl⟩
  · refine ⟨[], ?_⟩
    rw [names, htext, List.nil_append, pieces_of_not_mem hname.noSlash, List.map_singleton,
      String.ofList_toList]
    rfl
  · refine ⟨(pieces dir).map String.ofList, ?_⟩
    rw [names, htext, List.append_assoc, List.singleton_append, pieces_append_slash,
      pieces_of_not_mem hname.noSlash, List.map_append, List.map_singleton, String.ofList_toList]

/-- There is no slash at the end of a path that ends in a name. -/
theorem bare_of_endsIn {p : Path} {name : String} (h : p.EndsIn name) : bare p = p := by
  obtain ⟨lead, htext, -, hname⟩ := h
  obtain ⟨c, before, hc⟩ : ∃ c before, name.toList.reverse = c :: before :=
    List.exists_cons_of_ne_nil (by simpa using hname.ne_nil)
  have hslash : c ≠ '/' := by
    rintro rfl
    refine hname.noSlash (List.mem_reverse.mp ?_)
    rw [hc]
    exact List.mem_cons_self
  have hdrop : dropSlashes p.text.toList.reverse = p.text.toList.reverse := by
    rw [htext, List.reverse_append, hc, List.cons_append]
    unfold dropSlashes
    split
    · next heq => exact absurd (List.cons.inj heq).1 hslash
    · rfl
  rw [bare, hdrop, List.reverse_reverse, String.ofList_toList]

variable {fs : Files} {wd : WorkingDir} {name : String}

/-- The way out of a directory that is gone leaves the last name to be followed. -/
theorem emerge_plain (hname : IsPlain name) {pre : List String} {at_ at' : Location}
    {todo : List String} (h : fs.emerge wd at_ (pre ++ [name]) = .ok (at', todo)) :
    ∃ pre', todo = pre' ++ [name] := by
  induction pre generalizing at_ with
  | nil =>
    rw [List.nil_append, emerge] at h
    split at h
    · cases h
      exact ⟨[], rfl⟩
    · simp only [hname.1, hname.2.1, hname.2.2, Bool.or_self, decide_false, Bool.false_eq_true,
        if_false] at h
      cases h
  | cons first rest ih =>
    rw [List.cons_append, emerge] at h
    split at h
    · cases h
      exact ⟨first :: rest, rfl⟩
    · split at h
      · exact ih h
      · split at h
        · exact ih h
        · cases h

/-- A path that ends in a name that no link has leads to the same for every purpose, and to a place
of that name. -/
theorem locate_endsIn {p : Path} (hp : p.EndsIn name) (hlink : fs.Unlinked name)
    {purpose : Purpose} {found : Found} (hl : fs.locate wd purpose p = .ok found)
    (purpose' : Purpose) :
    fs.locate wd purpose' p = .ok found ∧ ∃ dir, found.place = dir ++ [name] := by
  have hname : IsPlain name := by
    obtain ⟨-, -, -, h⟩ := hp
    exact isPlain_of_isName h
  obtain ⟨pre, hnames⟩ := names_of_endsIn hp
  obtain ⟨hnul, hempty, hlong, hf⟩ := locate_eq_ok hl
  have hfollow : fs.follow wd purpose' p.text = .ok found ∧ ∃ dir, found.place = dir ++ [name] := by
    unfold follow at hf ⊢
    rw [hnames] at hf ⊢
    split at hf
    · next habs =>
      rw [if_pos habs]
      exact walk_plain hname hlink hf
    · next habs =>
      rw [if_neg habs]
      cases hem : fs.emerge wd wd.at_ (pre ++ [name]) with
      | error e =>
        rw [hem] at hf
        cases hf
      | ok way =>
        obtain ⟨at_, todo⟩ := way
        obtain ⟨pre', rfl⟩ := emerge_plain hname hem
        rw [hem] at hf
        cases pre' with
        | nil => exact walk_plain hname hlink hf
        | cons first rest => exact walk_plain hname hlink hf
  refine ⟨?_, hfollow.2⟩
  rw [locate, if_neg (by simp only [hnul, Bool.false_eq_true, not_false_eq_true]),
    if_neg (by simp only [hempty, Bool.false_eq_true, not_false_eq_true]),
    if_neg (Nat.not_lt.mpr hlong), hfollow.1]

/-! ## New regular files -/

/-- From `fs` to `fs'` the ways have stayed the same, and each regular file that has come is found
at one of the paths of `made`. -/
structure Adds (wd : WorkingDir) (made : List Path) (fs fs' : Files) : Prop where
  ways : fs.SameWays fs'
  found : ∀ {at_ : Location} {e : Entry}, fs'.get? at_ = some e → e.isFile = true →
    fs.get? at_ = none → ∃ p ∈ made, fs'.find wd p = .ok (at_, e)

/-- A path at whose end a regular file is found leads to it as long as the ways stay the same and
there is something. -/
theorem find_ways {fs' : Files} (h : fs.SameWays fs') {p : Path} {at_ : Location} {e e' : Entry}
    (hfind : fs.find wd p = .ok (at_, e)) (he : e.isFile = true) (he' : fs'.get? at_ = some e') :
    fs'.find wd p = .ok (at_, e') := by
  have hplace : ∀ b, Found.present at_ e ≠ .present b .directory := by
    rintro b heq
    cases heq
    cases he
  exact find_of_locate (locate_ways h (.inl rfl) (locate_of_find hfind) hplace he')

namespace Adds

variable {fs' fs'' : Files} {made made' : List Path}

/-- Nothing happens to the files. -/
theorem refl (wd : WorkingDir) (made : List Path) (fs : Files) : Adds wd made fs fs :=
  ⟨.refl fs, fun he _ hnone => by rw [hnone] at he; cases he⟩

/-- More paths may be known. -/
theorem mono (h : Adds wd made fs fs') (hsub : made ⊆ made') : Adds wd made' fs fs' := by
  refine ⟨h.ways, fun he hfile hnone => ?_⟩
  obtain ⟨p, hp, hfind⟩ := h.found he hfile hnone
  exact ⟨p, hsub hp, hfind⟩

/-- Where nothing comes, nothing comes but what may. -/
theorem of_nil (h : Adds wd [] fs fs') : Adds wd made fs fs' := h.mono (List.nil_subset made)

/-- Where one file comes that may, nothing else comes. -/
theorem of_single {p : Path} (h : Adds wd [p] fs fs') (hp : p ∈ made) : Adds wd made fs fs' :=
  h.mono fun _ hq => List.mem_singleton.mp hq ▸ hp

/-- What comes in one stretch and then in another comes in both. -/
theorem trans (h : Adds wd made fs fs') (h' : Adds wd made fs' fs'') : Adds wd made fs fs'' := by
  refine ⟨h.ways.trans h'.ways, fun {at_ e} he hfile hnone => ?_⟩
  cases hmid : fs'.get? at_ with
  | none => exact h'.found he hfile hmid
  | some e' =>
    have hfile' : e'.isFile = true := by
      rw [← Bool.not_eq_false]
      intro hnot
      rw [h'.ways.kept hmid hnot] at he
      cases he
      rw [hnot] at hfile
      cases hfile
    obtain ⟨p, hp, hfind⟩ := h.found hmid hfile' hnone
    exact ⟨p, hp, find_ways h'.ways hfind hfile' he⟩

end Adds

/-- Changing a regular file brings none. -/
theorem adds_set_file {at_ : Location} {old entry : Entry} (hold : fs.get? at_ = some old)
    (hfile : old.isFile = true) (hnew : entry.isFile = true) :
    Adds wd [] fs (fs.set at_ entry) := by
  refine ⟨sameWays_set (fun e he => ?_) hnew, fun {b e} he hf hnone => ?_⟩
  · rw [hold] at he
    cases he
    exact hfile
  · have hb : b ≠ [] := by
      rintro rfl
      rw [get?_nil] at hnone
      cases hnone
    rw [get?_set fs at_ b entry hb] at he
    split at he
    · next heq =>
      rw [heq, hold] at hnone
      cases hnone
    · rw [hnone] at he
      cases he

/-- Making a regular file where a path leads to nothing brings one that is found at the path. -/
theorem adds_set_missing {purpose : Purpose} {p : Path} {at_ : Location} {entry : Entry}
    (hpurpose : purpose = .target ∨ purpose = .creation)
    (hl : fs.locate wd purpose p = .ok (.missing at_)) (hnew : entry.isFile = true) :
    Adds wd [p] fs (fs.set at_ entry) := by
  have hnone := get?_of_locate_missing hl
  have hold : ∀ e, fs.get? at_ = some e → e.isFile = true := by
    intro e he
    rw [hnone] at he
    cases he
  have hfind : (fs.set at_ entry).find wd p = .ok (at_, entry) :=
    find_set hpurpose hl (by simp) hold hnew
  refine ⟨sameWays_set hold hnew, fun {b e} he hfile hfree => ⟨p, List.mem_singleton_self p, ?_⟩⟩
  have hb : b ≠ [] := by
    rintro rfl
    rw [get?_nil] at hfree
    cases hfree
  rw [get?_set fs at_ b entry hb] at he
  split at he
  · next heq =>
    cases he
    rw [heq]
    exact hfind
  · rw [hfree] at he
    cases he

/-- Making a directory brings no regular file. -/
theorem adds_make_directory {fs' : Files} {at_ : Location} (hnone : fs.get? at_ = none)
    (h : fs.make at_ .directory = .ok fs') : Adds wd [] fs fs' := by
  obtain rfl := make_eq_set h
  refine ⟨sameWays_set_directory hnone, fun {b e} he hfile hfree => ?_⟩
  have hb : b ≠ [] := by
    rintro rfl
    rw [get?_nil] at hfree
    cases hfree
  rw [get?_set fs at_ b _ hb] at he
  split at he
  · cases he
    cases hfile
  · rw [hfree] at he
    cases he

/-- Making a directory together with those above it brings no regular file. -/
theorem adds_makeDirectories (p : Path) : Adds wd [] fs (fs.makeDirectories wd p).2 :=
  makeDirectories_keeps (Adds.refl wd []) Adds.trans adds_make_directory fs wd p

/-- Opening a file for appending brings at most the file that is opened. -/
theorem adds_openAppend {fs' : Files} {p : Path} {at_ : Location}
    (h : fs.openAppend wd p = .ok (at_, fs')) : Adds wd [p] fs fs' := by
  rcases openAppend_eq_ok h with ⟨e, -, -, rfl⟩ | ⟨hl, hm⟩
  · exact .refl wd [p] _
  · obtain rfl := make_eq_set hm
    exact adds_set_missing (.inr rfl) hl rfl

/-- Opening a file to be written from its start brings at most the file that is opened. -/
theorem adds_create {fs' : Files} {p : Path} {at_ : Location}
    (h : fs.create wd p = .ok (at_, fs')) : Adds wd [p] fs fs' := by
  rcases create_eq_ok h with ⟨content, executable, hl, rfl⟩ | ⟨d, -, -, rfl⟩ | ⟨hl, hm⟩
  · obtain ⟨-, -, -, hf⟩ := locate_eq_ok hl
    exact (adds_set_file (get?_of_follow hf (by simp)) rfl rfl).of_nil
  · exact .refl wd [p] _
  · obtain rfl := make_eq_set hm
    exact adds_set_missing (.inr rfl) hl rfl

/-- Adding bytes to what has been opened brings no regular file. -/
theorem adds_append {fs' : Files} {at_ : Location} {bytes : Bytes}
    (h : fs.append at_ bytes = .ok fs') : Adds wd [] fs fs' := by
  unfold append at h
  split at h
  · next hget =>
    cases h
    exact adds_set_file hget rfl rfl
  · split at h
    · cases h
    · cases h
      exact .refl wd [] fs

/-! ## Removing what has come -/

/-- Whatever has a name is a regular file or a directory. -/
def Ordinary (fs : Files) (name : String) : Prop :=
  ∀ at_ e, fs.get? (at_ ++ [name]) = some e → e.isFile = true ∨ e = .directory

/-- Nothing but regular files and directories comes under a name. -/
theorem SameWays.ordinary {fs' : Files} (h : fs.SameWays fs') (ho : fs.Ordinary name) :
    fs'.Ordinary name := by
  intro at_ e he
  rcases h.fresh he with hf | hd | hb
  · exact .inl hf
  · exact .inr hd
  · exact ho at_ e hb

/-- No link has an ordinary name. -/
theorem Ordinary.unlinked (h : fs.Ordinary name) : fs.Unlinked name := by
  intro at_ target hl
  rcases h at_ _ hl with hf | hd
  · cases hf
  · cases hd

/-- Removing what a path with an ordinary name leads to removes a regular file, if it goes well; and
it goes well where the path leads to one. -/
theorem remove_ordinary (wd : WorkingDir) {p : Path} (hp : p.EndsIn name) (ho : fs.Ordinary name) :
    (∀ fs', fs.remove wd p = .ok fs' → ∃ at_ e, fs.find wd p = .ok (at_, e) ∧ e.isFile = true ∧
      fs' = fs.erase at_) ∧
    ∀ cause, fs.remove wd p = .error cause → ∀ at_ e, fs.find wd p = .ok (at_, e) →
      e.isFile = false := by
  have hbare := bare_of_endsIn hp
  constructor
  · intro fs' h
    obtain ⟨at_, e, hl, hdir, rfl⟩ := remove_eq_ok h
    rw [hbare] at hl
    obtain ⟨hl', dir, hplace⟩ := locate_endsIn hp ho.unlinked hl .target
    obtain ⟨-, -, -, hf⟩ := locate_eq_ok hl
    have hget : fs.get? at_ = some e := get?_of_follow hf hdir
    have hat : at_ = dir ++ [name] := hplace
    have hfile : e.isFile = true := by
      rcases ho dir e (hat ▸ hget) with hfile | hd
      · exact hfile
      · exact absurd hd hdir
    exact ⟨at_, e, find_of_locate hl', hfile, rfl⟩
  · intro cause h at_ e hfind
    obtain ⟨hl, -⟩ := locate_endsIn hp ho.unlinked (locate_of_find hfind) .linkItself
    rw [← Bool.not_eq_true]
    intro hfile
    unfold remove at h
    rw [hbare, hl] at h
    cases e with
    | directory => cases hfile
    | link target => cases hfile
    | device d => cases hfile
    | file content executable =>
      dsimp only at h
      rw [if_pos rfl] at h
      cases h

/-- Each regular file of `fs'` was one in `fs`, or is found at one of the paths of `made`. -/
def Brings (wd : WorkingDir) (made : List Path) (fs fs' : Files) : Prop :=
  ∀ (at_ : Location) (e : Entry), fs'.get? at_ = some e → e.isFile = true →
    (∃ old, fs.get? at_ = some old ∧ old.isFile = true) ∨ ∃ p ∈ made, fs'.find wd p = .ok (at_, e)

/-- As long as the ways stay the same, a regular file has come just when there was nothing in its
place. -/
theorem adds_iff {fs' : Files} {made : List Path} :
    Adds wd made fs fs' ↔ fs.SameWays fs' ∧ Brings wd made fs fs' := by
  constructor
  · refine fun h => ⟨h.ways, fun at_ e he hfile => ?_⟩
    cases hold : fs.get? at_ with
    | none => exact .inr (h.found he hfile hold)
    | some old =>
      refine .inl ⟨old, rfl, ?_⟩
      rw [← Bool.not_eq_false]
      intro hnot
      rw [h.ways.kept hold hnot] at he
      cases he
      rw [hnot] at hfile
      cases hfile
  · rintro ⟨hways, hbrings⟩
    refine ⟨hways, fun {at_ e} he hfile hnone => (hbrings _ _ he hfile).resolve_left ?_⟩
    rintro ⟨old, hold, -⟩
    rw [hnone] at hold
    cases hold

/-- What has come in one stretch and is added in another has come in both. -/
theorem Brings.trans {base fs' : Files} {made : List Path} (h : Brings wd made base fs)
    (h' : Adds wd made fs fs') : Brings wd made base fs' := by
  intro at_ e he hfile
  rcases (adds_iff.mp h').2 at_ e he hfile with ⟨old, hold, holdfile⟩ | hfound
  · rcases h _ _ hold holdfile with hbase | ⟨p, hp, hfind⟩
    · exact .inl hbase
    · exact .inr ⟨p, hp, find_ways h'.ways hfind holdfile he⟩
  · exact .inr hfound

/-- What a path with an ordinary name leads to is a regular file, and taking that away leaves the
ways as they are. -/
theorem sameWays_remove {fs' : Files} {p : Path} (hp : p.EndsIn name) (ho : fs.Ordinary name)
    (hr : fs.remove wd p = .ok fs') : fs.SameWays fs' := by
  obtain ⟨at_, e, hfind, hfile, rfl⟩ := (remove_ordinary wd hp ho).1 fs' hr
  have hget : fs.get? at_ = some e := get?_of_find hfind (by rintro rfl; cases hfile)
  refine sameWays_erase fun e' he' => ?_
  rw [hget] at he'
  cases he'
  exact hfile

/-- After what a path with an ordinary name leads to has been removed, or could not be, no new
regular file is found at that path. -/
theorem Brings.remove {base fs' : Files} {made : List Path} {p : Path}
    (h : Brings wd (p :: made) base fs) (hp : p.EndsIn name) (ho : fs.Ordinary name)
    (hr : fs.remove wd p = .ok fs' ∨ fs' = fs ∧ ∃ cause, fs.remove wd p = .error cause) :
    Brings wd made base fs' := by
  obtain ⟨hok, herror⟩ := remove_ordinary wd hp ho
  intro at_ e he hfile
  rcases hr with hr | ⟨rfl, cause, hr⟩
  · have hways := sameWays_remove hp ho hr
    obtain ⟨gone, e₀, hfind₀, -, rfl⟩ := hok fs' hr
    have hat : at_ ≠ [] := by
      rintro rfl
      rw [get?_nil] at he
      cases he
      cases hfile
    have he' := he
    rw [get?_erase fs gone at_ hat] at he'
    split at he'
    · cases he'
    · next hne =>
      rcases h _ _ he' hfile with hbase | ⟨q, hq, hfind⟩
      · exact .inl hbase
      · rcases List.mem_cons.mp hq with rfl | hq
        · rw [hfind₀] at hfind
          cases hfind
          exact absurd rfl hne
        · exact .inr ⟨q, hq, find_ways hways hfind hfile he⟩
  · rcases h _ _ he hfile with hbase | ⟨q, hq, hfind⟩
    · exact .inl hbase
    · rcases List.mem_cons.mp hq with rfl | hq
      · rw [herror cause hr at_ e hfind] at hfile
        cases hfile
      · exact .inr ⟨q, hq, hfind⟩

/-- After what a path with an ordinary name leads to has been removed, or could not be, no regular
file that has been added is found at that path. -/
theorem Adds.remove {base fs' : Files} {made : List Path} {p : Path}
    (h : Adds wd (p :: made) base fs) (hp : p.EndsIn name) (ho : fs.Ordinary name)
    (hr : fs.remove wd p = .ok fs' ∨ fs' = fs ∧ ∃ cause, fs.remove wd p = .error cause) :
    Adds wd made base fs' := by
  have hbrings : Brings wd made base fs' := (adds_iff.mp h).2.remove hp ho hr
  refine adds_iff.mpr ⟨h.ways.trans ?_, hbrings⟩
  rcases hr with hr | ⟨rfl, -⟩
  · exact sameWays_remove hp ho hr
  · exact .refl fs'

/-! ## Leaving alone what has come -/

/-- From `fs` to `fs'` nothing but directories has come, and what some paths led to they still lead
to as long as it is there. Directories, links and devices may have gone. -/
structure Spares (wd : WorkingDir) (paths : List Path) (fs fs' : Files) : Prop where
  old : ∀ {at_ : Location} {e : Entry}, fs'.get? at_ = some e →
    e = .directory ∨ ∃ before, fs.get? at_ = some before ∧ before.Becomes e
  leads : ∀ {p : Path} {at_ : Location} {e e' : Entry}, p ∈ paths → fs.find wd p = .ok (at_, e) →
    e.isFile = true → fs'.get? at_ = some e' → e'.isFile = true → fs'.find wd p = .ok (at_, e')

/-- Where nothing is added and the ways stay the same, everything is left alone. -/
theorem Adds.spares {fs' : Files} (h : Adds wd [] fs fs') (paths : List Path) :
    Spares wd paths fs fs' := by
  refine ⟨fun {at_ e} he => ?_, fun _ hfind hfile he' _ => find_ways h.ways hfind hfile he'⟩
  rcases h.ways.fresh he with hfile | hdirectory | hsame
  · rcases (adds_iff.mp h).2 at_ e he hfile with ⟨old, hold, holdfile⟩ | ⟨p, hp, -⟩
    · exact .inr ⟨old, hold, .inr ⟨holdfile, hfile⟩⟩
    · cases hp
  · exact .inl hdirectory
  · exact .inr ⟨e, hsame, .refl e⟩

/-- What is left alone is found where it was. -/
theorem Brings.spares {base fs' : Files} {made : List Path} (h : Brings wd made base fs)
    (hs : Spares wd made fs fs') : Brings wd made base fs' := by
  intro at_ e he hfile
  rcases hs.old he with rfl | ⟨before, hbefore, hbecomes⟩
  · cases hfile
  · have hbeforefile : before.isFile = true := by
      rcases hbecomes with rfl | ⟨hbeforefile, -⟩
      · exact hfile
      · exact hbeforefile
    rcases h _ _ hbefore hbeforefile with hbase | ⟨p, hp, hfind⟩
    · exact .inl hbase
    · exact .inr ⟨p, hp, hs.leads hp hfind hbeforefile he hfile⟩

/-- Nothing but directories comes under a name. -/
theorem Spares.ordinary {fs' : Files} {paths : List Path} (hs : Spares wd paths fs fs')
    (ho : fs.Ordinary name) : fs'.Ordinary name := by
  intro at_ e he
  rcases hs.old he with rfl | ⟨before, hbefore, hbecomes⟩
  · exact .inr rfl
  · rcases hbecomes with rfl | ⟨-, hfile⟩
    · exact ho at_ _ hbefore
    · exact .inl hfile

end Files

end CxxScript

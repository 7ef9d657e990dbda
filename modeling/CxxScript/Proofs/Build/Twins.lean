import CxxScript.Proofs.Build.Copying
import CxxScript.Proofs.Host.Agreeing
import CxxScript.Proofs.Source.Privacy

/-!
# Units side by side

Two trees of files that differ in private values alone are scanned side by side. A unit of one has a
twin in the other: the same unit, but for private flags where the unit is concerned by the
difference. What a scan does to the two keeps them twins, line by line, `Scan.agree_readLine`, and
the copies that are written differ in private values alone, `Scan.agree_writeCopy`. So both scans
find the same units and fail in the same way, `Discovery.Visit.Runs.agree`.
-/

set_option autoImplicit false

namespace CxxScript

open Host

section

variable {R : Location → Bytes → Bytes → Prop} {m : Machine} {h h' : Host}

namespace Package

/-- Putting a question to a query command that overlooks what differs. -/
theorem agree_query (halike : Alike R h h') {c : Command} (hm : m.OverlooksAt R c.words) :
    Agree R (query m c) h (query m c) h' fun a a' => a' = a := by
  unfold query
  refine (agree_capture halike hm).step fun r k k' hk => ?_
  split <;> exact .pure hk rfl

/-- Asking for packages. -/
theorem agree_flagsFor (halike : Alike R h h') {command : String}
    (hm : m.Overlooks R (IsQuestion command)) (requirement : String) :
    Agree R (flagsFor m command requirement) h (flagsFor m command requirement) h'
      fun a a' => a' = a := by
  unfold flagsFor
  split
  · exact .pure halike rfl
  · next base hbase =>
    have hexists : IsQuestion command (base.withArgs (existsArgs requirement)) :=
      ⟨base, requirement, hbase, .inl rfl⟩
    have hflags : IsQuestion command (base.withArgs (flagsArgs requirement)) :=
      ⟨base, requirement, hbase, .inr rfl⟩
    refine (agree_query halike (hm _ hexists)).step fun r k k' hk => ?_
    split
    · exact .pure hk rfl
    · split
      · exact .pure hk rfl
      · refine (agree_query hk (hm _ hflags)).step fun r j j' hj => ?_
        split
        · exact .pure hj rfl
        · split <;> exact .pure hj rfl

end Package

namespace Placement

/-- Trying a place. -/
theorem agree_touch (m : Machine) (p : Path) (halike : Alike R h h') :
    Agree R (touch m p) h (touch m p) h' fun a a' => a' = a :=
  (agree_openAppend m p halike).step fun _ _ _ hk => .pure hk rfl

/-- Making the directory of a place. -/
theorem agree_makeParent (m : Machine) (p : Path) (halike : Alike R h h') :
    Agree R (makeParent m p) h (makeParent m p) h' fun a a' => a' = a := by
  unfold makeParent
  split
  · exact (agree_makeDirectories m _ halike).step fun _ _ _ hk => .pure hk rfl
  · exact .pure halike rfl

/-- Finding a place. -/
theorem agree_find (m : Machine) (root p : Path) (halike : Alike R h h') :
    Agree R (find m root p) h (find m root p) h' fun a a' => a' = a := by
  unfold find
  refine (agree_touch m p halike).step fun beside k k' hk => ?_
  split
  · exact .pure hk rfl
  · rw [agree_get, Files.workingLocation?_alike hk.files]
    refine (agree_makeParent m _ hk).step fun _ j j' hj => ?_
    refine (agree_touch m _ hj).step fun relocated i i' hi => ?_
    split
    · exact (agree_emit hi _ _).step fun _ _ _ hi => .pure hi rfl
    · exact .pure hi rfl

end Placement

/-- A unit is made the same way. -/
theorem CompilationUnit.ofPath_alike (halike : Alike R h h') (m : Machine) (kind : UnitKind)
    (p : Path) : ofPath m h' kind p = ofPath m h kind p := by
  have hidentity : h'.identity m p.normalize = h.identity m p.normalize :=
    Files.identity_alike halike.files m.cwd p.normalize
  rw [ofPath, ofPath, hidentity]

/-- The same source file stands beside a header. -/
theorem Scan.sourceBeside?_alike (halike : Alike R h h') (m : Machine) (header : Path) :
    sourceBeside? m h' header = sourceBeside? m h header := by
  have hfile : h'.isFile m = h.isFile m := funext (isFile_alike halike m)
  rw [sourceBeside?, sourceBeside?, hfile]

end

/-! ## Twins -/

namespace CompilationUnit

/-- Two units are the same but for their private flags, and these differ only where the units are
concerned. -/
structure Twin (concerned : Prop) (u u' : CompilationUnit) : Prop where
  same : u' = { u with privateFlags := u'.privateFlags }
  unconcerned : ¬ concerned → u' = u

variable {concerned : Prop} {u u' : CompilationUnit}

/-- A unit is its own twin. -/
theorem Twin.refl (concerned : Prop) (u : CompilationUnit) : Twin concerned u u :=
  ⟨rfl, fun _ => rfl⟩

/-- What does the same to units that differ in their private flags keeps twins. -/
theorem Twin.map (h : Twin concerned u u') {f : CompilationUnit → CompilationUnit}
    (hf : ∀ fs, ∃ fs', f { u with privateFlags := fs } = { f u with privateFlags := fs' }) :
    Twin concerned (f u) (f u') := by
  refine ⟨?_, fun hc => congrArg f (h.unconcerned hc)⟩
  obtain ⟨fs, hfs⟩ := hf u'.privateFlags
  rw [← h.same] at hfs
  rw [hfs]

/-- Flags are pushed to twins. -/
theorem Twin.pushFlags (h : Twin concerned u u') (run : List String) :
    Twin concerned (u.pushFlags run).2 (u'.pushFlags run).2 :=
  h.map (f := fun u => (u.pushFlags run).2) fun fs => ⟨fs, rfl⟩

/-- Private flags are pushed to twins. -/
theorem Twin.pushPrivateFlags (h : Twin concerned u u') (run : List String) :
    Twin concerned (u.pushPrivateFlags run).2 (u'.pushPrivateFlags run).2 :=
  h.map (f := fun u => (u.pushPrivateFlags run).2) fun _ => ⟨_, rfl⟩

/-- Other private flags are pushed to twins that are concerned. -/
theorem Twin.pushOtherFlags (h : Twin concerned u u') (hc : concerned) (run run' : List String) :
    Twin concerned (u.pushPrivateFlags run).2 (u'.pushPrivateFlags run').2 := by
  refine ⟨?_, fun hno => absurd hc hno⟩
  rw [h.same]
  rfl

/-- Twins are for the same file. -/
theorem Twin.path (h : Twin concerned u u') : u'.path = u.path := by rw [h.same]

/-- Twins have the same key. -/
theorem Twin.identity (h : Twin concerned u u') : u'.identity = u.identity := by rw [h.same]

/-- Twins have their copies at the same place. -/
theorem Twin.copy (h : Twin concerned u u') : u'.copy = u.copy := by rw [h.same]

/-- Twins are of the same kind. -/
theorem Twin.isHeader (h : Twin concerned u u') : u'.isHeader = u.isHeader := by rw [h.same]; rfl

/-- Twins have the same flags for the whole build. -/
theorem Twin.flags (h : Twin concerned u u') : u'.flags = u.flags := by rw [h.same]

end CompilationUnit

namespace Scan

open Source CompilationUnit

variable {concerned : Prop} {s s' : Scan}

/-- Two scans have come equally far, with twins. -/
structure Twin (concerned : Prop) (s s' : Scan) : Prop where
  unit : CompilationUnit.Twin concerned s.unit s'.unit
  found : s'.found = s.found
  diagnostics : s'.diagnostics = s.diagnostics

/-- Flags are pushed in both scans. -/
theorem Twin.pushFlags (h : Twin concerned s s') (run : List String) :
    Twin concerned (s.pushFlags run) (s'.pushFlags run) :=
  ⟨h.unit.pushFlags run, h.found, h.diagnostics⟩

/-- Private flags are pushed in both scans. -/
theorem Twin.pushPrivateFlags (h : Twin concerned s s') (run : List String) :
    Twin concerned (s.pushPrivateFlags run) (s'.pushPrivateFlags run) :=
  ⟨h.unit.pushPrivateFlags run, h.found, h.diagnostics⟩

/-- The same is reported in both scans. -/
theorem Twin.complain (h : Twin concerned s s') (d : Diagnostic) :
    Twin concerned (s.complain d) (s'.complain d) :=
  ⟨h.unit, h.found, congrArg (· ++ [d]) h.diagnostics⟩

/-- The same unit is referred to in both scans. -/
theorem Twin.refer (h : Twin concerned s s') (u : CompilationUnit) :
    Twin concerned (s.refer u) (s'.refer u) := by
  unfold Scan.refer
  rw [h.found]
  split
  · exact h
  · exact ⟨h.unit, congrArg (· ++ [u]) rfl, h.diagnostics⟩

/-- Where nothing is concerned, both scans are one. -/
theorem Twin.eq (h : Twin False s s') : s' = s := by
  obtain ⟨u', found', diagnostics'⟩ := s'
  have hunit : u' = s.unit := h.unit.unconcerned not_false
  have hfound : found' = s.found := h.found
  have hdiagnostics : diagnostics' = s.diagnostics := h.diagnostics
  rw [hunit, hfound, hdiagnostics]

variable {R : Location → Bytes → Bytes → Prop} {m : Machine} {cfg : Config} {h h' : Host}

/-- Following a directive in both scans. -/
theorem agree_apply (halike : Alike R h h') (hm : m.Overlooks R (Package.IsQuestion cfg.pkgConfig))
    (hs : Twin concerned s s') (position : Position) (d : Directive) :
    Agree R (s.apply m cfg position d) h (s'.apply m cfg position d) h' (Twin concerned) := by
  unfold apply
  rw [hs.unit.path]
  split
  · exact .pure halike (hs.pushFlags _)
  · exact .pure halike hs
  · exact .pure halike (hs.pushFlags _)
  · exact .pure halike (hs.pushPrivateFlags _)
  · refine (Package.agree_flagsFor halike hm _).step fun r k k' hk => ?_
    split
    · exact .pure hk (hs.pushFlags _)
    · exact .pure hk (hs.complain _)
  · split
    · refine (agree_emit halike _ _).step fun _ k k' hk => ?_
      rw [agree_get, ofPath_alike hk]
      exact .pure hk (hs.refer _)
    · exact .pure halike (hs.complain _)
  · exact .pure halike (hs.complain _)
  · exact .pure halike (hs.complain _)

/-- Following an include in both scans. -/
theorem agree_follow (halike : Alike R h h') (hm : m.Overlooks R (Package.IsQuestion cfg.pkgConfig))
    (hs : Twin concerned s s') (index : Nat) (i : Include) :
    Agree R (s.follow m cfg index i) h (s'.follow m cfg index i) h' (Twin concerned) := by
  unfold follow
  rw [hs.unit.path]
  split
  · next target =>
    rw [agree_get, isFile_alike halike, sourceBeside?_alike halike, ofPath_alike halike]
    dsimp only
    have hheader : Twin concerned
        (if h.isFile m (s.unit.path.resolveFrom target) then
          s.refer (.ofPath m h .header (s.unit.path.resolveFrom target)) else s)
        (if h.isFile m (s.unit.path.resolveFrom target) then
          s'.refer (.ofPath m h .header (s.unit.path.resolveFrom target)) else s') := by
      split
      · exact hs.refer _
      · exact hs
    split
    · rw [ofPath_alike halike]
      exact .pure halike (hheader.refer _)
    · exact .pure halike hheader
  · split
    · exact .pure halike (hs.pushFlags _)
    · refine (Package.agree_flagsFor halike hm _).step fun r k k' hk => ?_
      split
      · exact .pure hk (hs.pushFlags _)
      · exact (agree_emit hk _ _).step fun _ _ _ hj => .pure hj hs
    · exact .pure halike hs

/-- Following an include, if there is one, in both scans. -/
theorem agree_followAny (halike : Alike R h h')
    (hm : m.Overlooks R (Package.IsQuestion cfg.pkgConfig)) (hs : Twin concerned s s')
    (index : Nat) (i? : Option Include) : Agree R (s.followAny m cfg index i?) h
      (s'.followAny m cfg index i?) h' (Twin concerned) := by
  cases i? with
  | none => exact .pure halike hs
  | some i => exact agree_follow halike hm hs index i

/-- An include that leads to nothing is passed over. -/
theorem followAny_inert {i? : Option Include} (hi : Inert i?) (m : Machine) (cfg : Config)
    (index : Nat) (s : Scan) : s.followAny m cfg index i? = pure s := by
  match i? with
  | none => rfl
  | some (.beside target) => exact hi.elim
  | some (.system header) =>
    have hnone : Package.Implied.ofHeader? header = none := hi
    unfold followAny follow
    dsimp only
    rw [hnone]

/-- Reading a line in both scans, which may differ in a private value where the units are
concerned. -/
theorem agree_readLine (halike : Alike R h h')
    (hm : m.Overlooks R (Package.IsQuestion cfg.pkgConfig)) (hs : Twin concerned s s')
    {line line' : List Char} (hline : line' = line ∨ concerned ∧ PrivateChange line line')
    (index : Nat) : Agree R (s.readLine m cfg index line) h (s'.readLine m cfg index line') h'
      (Twin concerned) := by
  rw [readLine_eq, readLine_eq]
  have hdirect : Agree R (s.direct m cfg index line) h (s'.direct m cfg index line') h'
      (Twin concerned) := by
    unfold direct
    rcases hline with rfl | ⟨hc, opening, value, value', hopening, -, hv, hv', rfl, rfl⟩
    · split
      · exact agree_apply halike hm hs _ _
      · exact .pure halike hs
    · obtain ⟨place, hplace⟩ := private_directive hopening
      obtain ⟨text, htext⟩ := hplace index value hv
      obtain ⟨text', htext'⟩ := hplace index value' hv'
      rw [htext, htext']
      exact .pure halike ⟨hs.unit.pushOtherFlags hc _ _, hs.found, hs.diagnostics⟩
  refine hdirect.bind fun s₁ s₁' k k' hs₁ hk => ?_
  rcases hline with rfl | ⟨-, opening, value, value', hopening, -, -, -, rfl, rfl⟩
  · exact agree_followAny hk hm hs₁ index _
  · rcases include_private hopening with ⟨i?, hi⟩ | hi
    · rw [hi, hi]
      exact agree_followAny hk hm hs₁ index _
    · rw [followAny_inert (hi value), followAny_inert (hi value')]
      exact .pure hk hs₁

/-- Reading lines in both scans. -/
theorem agree_readLines (halike : Alike R h h')
    (hm : m.Overlooks R (Package.IsQuestion cfg.pkgConfig)) (hs : Twin concerned s s')
    {lines lines' : List Bytes} (hlines : List.Forall₂ (fun line line' =>
      line' = line ∨ concerned ∧ LineSameButPrivate line line') lines lines') (index : Nat) :
    Agree R (readLines m cfg index lines s) h (readLines m cfg index lines' s') h'
      fun r r' => r'.1 = r.1 ∧ Twin concerned r.2 r'.2 := by
  induction hlines generalizing index s s' h h' with
  | nil => exact .pure halike ⟨rfl, hs⟩
  | @cons line line' rest rest' hline _ ih =>
    have hread : readableLine line' = readableLine line ∨
        concerned ∧ PrivateChange (readableLine line) (readableLine line') := by
      rcases hline with rfl | ⟨hc, rfl | ⟨-, hchange⟩⟩
      · exact .inl rfl
      · exact .inl rfl
      · exact .inr ⟨hc, hchange⟩
    unfold readLines
    refine (agree_poll m halike).step fun signal? k k' hk => ?_
    split
    · exact .pure hk ⟨rfl, hs⟩
    · exact (agree_readLine hk hm hs hread index).bind fun s₁ s₁' j j' hs₁ hj =>
        ih hj hs₁ (index + 1)

end Scan

/-! ## Copies -/

/-- A copy is never empty. -/
theorem Source.isEmpty_copyOf (p : Path) (content : Bytes) :
    (copyOf p content).isEmpty = false := by
  rw [copyOf, encode_lineMarker]
  rfl

/-- A path leads to a regular file without content, or to a device, at a location. -/
def Files.Opens (fs : Files) (wd : WorkingDir) (p : Path) (at_ : Location) : Prop :=
  (∃ executable, fs.find wd p = .ok (at_, .file [] executable)) ∨
    ∃ d, fs.find wd p = .ok (at_, .device d)

/-- What stands where a path opens. -/
theorem Files.Opens.get? {fs : Files} {wd : WorkingDir} {p : Path} {at_ : Location}
    (h : fs.Opens wd p at_) : (∃ executable, fs.get? at_ = some (.file [] executable)) ∨
      ∃ d, fs.get? at_ = some (.device d) :=
  h.imp (fun ⟨b, hb⟩ => ⟨b, get?_of_find hb (by simp)⟩)
    fun ⟨d, hd⟩ => ⟨d, get?_of_find hd (by simp)⟩

/-- Where a path opens in both of two trees that are alike, the same stands there. -/
theorem Files.get?_opened {R : Location → Bytes → Bytes → Prop} {fs fs' : Files} {wd : WorkingDir}
    {p : Path} {at_ : Location} (halike : fs.Alike R fs') (hopened : fs.Opens wd p at_)
    (hopened' : fs'.Opens wd p at_) : fs'.get? at_ = fs.get? at_ := by
  have hget := hopened.get?
  have hget' := hopened'.get?
  rcases halike.entries at_ with ⟨hnone, hnone'⟩ | ⟨e, e', he, he', hentry⟩
  · rw [hnone, hnone']
  · rw [he] at hget ⊢
    rw [he'] at hget' ⊢
    cases hentry with
    | same => rfl
    | file executable _ =>
      rcases hget with ⟨b, hb⟩ | ⟨d, hd⟩
      · rcases hget' with ⟨b', hb'⟩ | ⟨d, hd⟩
        · cases hb
          cases hb'
          rfl
        · cases hd
      · cases hd

namespace CompilationUnit

variable {concerned : Prop} {u u' : CompilationUnit} {R : Location → Bytes → Bytes → Prop}
  {m : Machine} {cfg : Config} {h h' : Host}

/-- Twins are given a place for their copies. -/
theorem Twin.withCopyAt (hu : Twin concerned u u') (place : Placement) :
    Twin concerned (u.withCopyAt place) (u'.withCopyAt place) := by
  refine hu.map (f := fun u => u.withCopyAt place) fun fs => ?_
  unfold CompilationUnit.withCopyAt
  split
  · exact ⟨_, rfl⟩
  · exact ⟨fs, rfl⟩

/-- Opening the copies of twins. -/
theorem agree_openCopy (halike : Alike R h h') (hu : Twin concerned u u') :
    Agree R (u.openCopy m cfg) h (u'.openCopy m cfg) h'
      fun r r' => r'.1 = r.1 ∧ Twin concerned r.2 r'.2 := by
  unfold openCopy
  rw [hu.isHeader, hu.path, hu.copy]
  split
  · exact .pure halike ⟨rfl, hu⟩
  · refine (Placement.agree_find m cfg.cacheRoot u.copy halike).step fun r k k' hk => ?_
    split
    · exact .pure hk ⟨rfl, hu⟩
    · next place =>
      have hplace := hu.withCopyAt place
      dsimp only
      rw [hplace.copy]
      exact (agree_create m _ hk).step fun r j j' hj => .pure hj ⟨rfl, hplace⟩

end CompilationUnit

namespace Scan

open Source CompilationUnit

variable {concerned : Prop} {u u' u₁ : CompilationUnit} {R : Location → Bytes → Bytes → Prop}
  {m : Machine} {cfg : Config} {h h' k : Host} {content content' : Bytes}

/-- Adding the texts of copies where a path opens. Where they differ they have to be alike where the
copies stand. -/
theorem agree_appendCopy {copy : Path} {at_ : Location} (p : Path) (halike : Alike R h h')
    (hopened : h.files.Opens m.cwd copy at_) (hopened' : h'.files.Opens m.cwd copy at_)
    {r : Except IoError Unit} (happend : (Host.append at_ (copyOf p content)).run h = (r, k))
    (hcopies : ∀ e, k.files.find m.cwd copy = .ok (at_, e) → ∀ executable, Entry.Alike R at_
      (.file (copyOf p content) executable) (.file (copyOf p content') executable)) :
    Agree R (Host.append at_ (copyOf p content)) h (Host.append at_ (copyOf p content')) h'
      fun r r' => r' = r := by
  refine agree_append halike (Files.get?_opened halike.files hopened hopened')
    (by rw [isEmpty_copyOf, isEmpty_copyOf]) fun c executable hget => ?_
  rcases hopened with ⟨executable', hfind⟩ | ⟨d, hfind⟩
  · have hempty := Files.get?_of_find hfind (by simp)
    cases hempty.symm.trans hget
    have happended := files_append_file happend hempty
    rw [List.nil_append, List.nil_append]
    exact hcopies _ (Files.find_append hfind happended) executable
  · cases (Files.get?_of_find hfind (by simp)).symm.trans hget

/-- Writing the copies of twins. Where these differ they have to be alike where they stand. -/
theorem agree_writeCopy (halike : Alike R h h') (hu : CompilationUnit.Twin concerned u u')
    (hneed : needsCopy content' = needsCopy content)
    {r : Except ScanError Unit} (hw : (writeCopy m cfg content u).run h = ((r, u₁), k))
    (hcopies : needsCopy content = true → u.isHeader = false → u₁.copied = true →
      ∀ at_ e, k.files.find m.cwd u₁.copy = .ok (at_, e) → ∀ executable, Entry.Alike R at_
        (.file (copyOf u.path content) executable) (.file (copyOf u.path content') executable)) :
    Agree R (writeCopy m cfg content u) h (writeCopy m cfg content' u') h'
      fun r r' => r'.1 = r.1 ∧ CompilationUnit.Twin concerned r.2 r'.2 := by
  unfold writeCopy at hw ⊢
  rw [hneed]
  cases hneeded : needsCopy content with
  | false => exact .pure halike ⟨rfl, hu⟩
  | true =>
  rw [hneeded, Bool.not_true, if_neg Bool.false_ne_true] at hw
  rw [Bool.not_true, if_neg Bool.false_ne_true, if_neg Bool.false_ne_true]
  obtain ⟨⟨place, v⟩, j, hopen⟩ := exists_run (u.openCopy m cfg) h
  obtain ⟨⟨place', v'⟩, j', hopen'⟩ := exists_run (u'.openCopy m cfg) h'
  obtain ⟨⟨hplace, hv⟩, hj⟩ := (agree_of_run hopen hopen' _).mp (agree_openCopy halike hu)
  obtain rfl : place' = place := hplace
  rw [run_bind_of_run hopen] at hw
  rw [agree_bind, hopen, hopen']
  cases place' with
  | error cause => exact .pure hj ⟨rfl, hv⟩
  | ok at_ =>
    dsimp only at hw hv ⊢
    rw [hv.path, hv.copy]
    have hnote : (note (.copying v.path v.copy)).run j =
        ((), j.noted (.copying v.path v.copy)) := rfl
    have hnoted : Alike R (j.noted (.copying v.path v.copy))
        (j'.noted (.copying v.path v.copy)) := hj.withEvents _ _
    rw [run_bind_of_run hnote] at hw
    obtain ⟨ra, k', happend⟩ :=
      exists_run (Host.append at_ (copyOf v.path content)) (j.noted (.copying v.path v.copy))
    rw [run_bind_of_run happend] at hw
    cases hw
    have hsource : u.isHeader = false := by
      rw [Bool.eq_false_iff]
      intro hheader
      rw [openCopy, if_pos hheader] at hopen
      cases hopen
    obtain ⟨⟨spot, rfl⟩, hopened⟩ := openCopy_opened hopen
    have hopened' := (openCopy_opened hopen').2
    rw [hv.copy] at hopened'
    rw [agree_bind]
    refine (agree_appendCopy _ hnoted hopened hopened' happend fun e hfind => ?_).step
      fun _ _ _ hi => .pure hi ⟨rfl, hv⟩
    rw [path_withCopyAt]
    exact hcopies hneeded hsource (copied_withCopyAt u spot) at_ e hfind

end Scan

/-! ## Visits -/

namespace Discovery

open Source CompilationUnit

variable {T : Location → Prop} {m : Machine} {cfg : Config}

/-- The visit reads a file that stands at a location of `T`. -/
def Visit.ReadsFrom (m : Machine) (T : Location → Prop) (v : Visit) : Prop :=
  ∃ at_ e, v.start.files.find m.cwd v.unit.path = .ok (at_, e) ∧ T at_

/-- The visit of a source leaves the copy of its file at a location. -/
def Visit.CopiesTo (m : Machine) (v : Visit) (at_ : Location) : Prop :=
  v.unit.isHeader = false ∧ v.result.copied = true ∧
    ∃ e, v.final.files.find m.cwd v.result.copy = .ok (at_, e)

end Discovery

end CxxScript

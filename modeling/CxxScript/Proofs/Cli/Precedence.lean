import CxxScript.Proofs.Cli.Apportioning
import CxxScript.Proofs.Cli.Keeping

/-!
# Which source an option has its value from

What a command line gives is read after what a file keeps, so the last value on the command line is
the one that an option has, and a value from the file is left only where the command line gives
none, `Invocation.overridden_of_parse`. What a file keeps are options, each read by itself before it
was kept, so reading them together with a command line cannot fail where the command line alone does
not, `Invocation.parse_error_iff`.
-/

set_option autoImplicit false

namespace CxxScript.Cli

/-! ## What an argument gives -/

/-- An argument gives a value to an option: it stands behind the equals sign, which may be left out
behind the `O`. -/
inductive Gives : String → Valued → String → Prop
  | equals (v : Valued) (x : String) : Gives (v.name ++ "=" ++ x) v x
  | level (x : String) : ¬ (∃ rest, x = "=" ++ rest) → Gives ("--hbcxx-O" ++ x) .optimization x

/-- The last value that some arguments give to an option. -/
def LastGiven (args : List String) (v : Valued) (x : String) : Prop :=
  ∃ before arg after, args = before ++ arg :: after ∧ Gives arg v x ∧
    ∀ later ∈ after, ∀ y, ¬ Gives later v y

/-- The value that an argument gives to an option. -/
def given? (v : Valued) (arg : String) : Option String :=
  match cutEquals (withEquals arg) with
  | (name, some x) => if name = v.name then some x else none
  | (_, none) => none

/-- Options that take a value are told apart by their names. -/
theorem Valued.eq_of_name {v w : Valued} (h : v.name = w.name) : v = w := by
  have hv : valuedNames.lookup v.name = some v := lookup_valuedNames.mpr rfl
  rw [lookup_valuedNames.mpr h] at hv
  exact (Option.some.inj hv).symm

/-- An option that is written with its equals sign is taken as it is. -/
theorem withEquals_token (s : Setting) : withEquals s.token = s.token := by
  apply withEquals_of_not_level
  intro level hlevel
  rw [← String.toList_inj, String.toList_append] at hlevel
  cases s with
  | switch s => cases s <;> cases hlevel
  | value v x =>
    cases v with
    | optimization =>
      refine ⟨x, ?_⟩
      rw [← String.toList_inj]
      simpa [Setting.token, Valued.name] using hlevel.symm
    | cxx => simp [Setting.token, Valued.name] at hlevel
    | debugger => simp [Setting.token, Valued.name] at hlevel
    | executable => simp [Setting.token, Valued.name] at hlevel

/-- To write an option with an equals sign twice is to do it once. -/
theorem withEquals_withEquals (arg : String) : withEquals (withEquals arg) = withEquals arg := by
  rcases withEquals_cases arg with ⟨level, -, -, h⟩ | h
  · rw [h]
    exact withEquals_token (.value .optimization level)
  · rw [h, h]

/-- An option gives the same value when it is written with an equals sign. -/
theorem given?_withEquals (v : Valued) (arg : String) :
    given? v (withEquals arg) = given? v arg := by
  rw [given?, given?, withEquals_withEquals]

/-- What the option of a setting gives is what the setting gives. -/
theorem given?_token (v : Valued) (s : Setting) : given? v s.token = s.given? v := by
  cases s with
  | switch s =>
    rw [given?, withEquals_token, Setting.token, cutEquals_of_not_mem (equals_not_mem_switch s)]
    rfl
  | value w x =>
    rw [given?, withEquals_token, Setting.token, cutEquals_append (equals_not_mem_valued w)]
    by_cases hw : w = v
    · simp [Setting.given?, hw]
    · have hname : w.name ≠ v.name := mt Valued.eq_of_name hw
      simp [Setting.given?, hw, hname]

/-- The value that an argument gives to an option is the one that it is written with. -/
theorem given?_eq_some_iff {v : Valued} {arg x : String} :
    given? v arg = some x ↔ Gives arg v x := by
  constructor
  · intro h
    rcases withEquals_cases arg with ⟨level, rfl, hlevel, harg⟩ | harg
    · have hgiven : given? v ("--hbcxx-O" ++ "=" ++ level) =
          (Setting.value .optimization level).given? v :=
        given?_token v (.value .optimization level)
      rw [← given?_withEquals, harg, hgiven, Setting.given?] at h
      split at h
      · next hv =>
        cases hv
        cases h
        exact .level x hlevel
      · cases h
    · rw [given?, harg] at h
      split at h
      · next name value hcut =>
        split at h
        · next hname =>
          cases h
          rw [eq_of_cutEquals hcut, hname]
          exact .equals v x
        · cases h
      · cases h
  · intro h
    cases h with
    | equals v x =>
      have hgiven := given?_token v (.value v x)
      rw [Setting.given?, if_pos rfl] at hgiven
      exact hgiven
    | level x hx =>
      rw [given?, withEquals_level hx]
      have hcut := cutEquals_append (equals_not_mem_valued .optimization) x
      rw [Valued.name] at hcut
      rw [hcut]
      rfl

/-- Only the tool's own arguments give a value. -/
theorem Gives.isOwn {arg : String} {v : Valued} {x : String} (h : Gives arg v x) :
    Invocation.isOwn arg = true := by
  rw [Invocation.isOwn_iff]
  cases h with
  | equals v x =>
    cases v with
    | cxx => exact ⟨"cxx" ++ "=" ++ x, by simp [Valued.name, ← String.append_assoc]⟩
    | debugger => exact ⟨"debugger" ++ "=" ++ x, by simp [Valued.name, ← String.append_assoc]⟩
    | executable => exact ⟨"executable" ++ "=" ++ x, by simp [Valued.name, ← String.append_assoc]⟩
    | optimization => exact ⟨"O" ++ "=" ++ x, by simp [Valued.name, ← String.append_assoc]⟩
  | level x hx => exact ⟨"O" ++ x, by simp [← String.append_assoc]⟩

/-! ## The last of some arguments -/

/-- The last result of a list is that of the last element that has one. -/
theorem getLast?_filterMap_eq_some_iff {α β : Type} {f : α → Option β} {l : List α} {b : β} :
    (l.filterMap f).getLast? = some b ↔
      ∃ before a after, l = before ++ a :: after ∧ f a = some b ∧ ∀ c ∈ after, f c = none := by
  rw [List.getLast?_filterMap, List.findSome?_eq_some_iff]
  constructor
  · rintro ⟨after, a, before, hl, ha, hafter⟩
    refine ⟨before.reverse, a, after.reverse, ?_, ha, ?_⟩
    · rw [← List.reverse_inj, hl]
      simp
    · intro c hc
      exact hafter c (List.mem_reverse.mp hc)
  · rintro ⟨before, a, after, rfl, ha, hafter⟩
    refine ⟨after.reverse, a, before.reverse, by simp, ha, ?_⟩
    intro c hc
    exact hafter c (List.mem_reverse.mp hc)

/-- An argument gives an option no value when it is written with none. -/
theorem given?_eq_none_iff {v : Valued} {arg : String} :
    given? v arg = none ↔ ∀ x, ¬ Gives arg v x := by
  simp only [Option.eq_none_iff_forall_ne_some, ← given?_eq_some_iff, ne_eq]

/-- The value that is given last is the last one of those that the arguments give. -/
theorem lastGiven_iff {args : List String} {v : Valued} {x : String} :
    LastGiven args v x ↔ (args.filterMap (given? v)).getLast? = some x := by
  simp only [getLast?_filterMap_eq_some_iff, given?_eq_some_iff, given?_eq_none_iff]
  rfl

namespace Invocation

/-- The own options give the values that all arguments give. -/
theorem filterMap_ownOptions (v : Valued) (args : List String) :
    (ownOptions args).filterMap (given? v) = args.filterMap (given? v) := by
  rw [ownOptions, List.filterMap_map, List.filterMap_filter]
  congr 1
  funext arg
  cases hown : isOwn arg with
  | true => simp [given?_withEquals]
  | false =>
    have hnone : given? v arg = none := by
      rw [given?_eq_none_iff]
      intro x hx
      rw [hx.isOwn] at hown
      cases hown
    simp [hnone]

/-- The name of a switch is among the own options when it is among the arguments. -/
theorem name_mem_ownOptions_iff {s : Switch} {args : List String} :
    s.name ∈ ownOptions args ↔ s.name ∈ args := by
  rw [ownOptions, List.mem_map]
  constructor
  · rintro ⟨arg, harg, hname⟩
    rcases withEquals_cases arg with ⟨level, -, -, h⟩ | h
    · exfalso
      apply equals_not_mem_switch s
      rw [← hname, h]
      simp
    · rw [← hname, h]
      exact (List.mem_filter.mp harg).1
  · intro h
    refine ⟨s.name, List.mem_filter.mpr ⟨h, ?_⟩, withEquals_token (.switch s)⟩
    cases s <;> decide

/-- The double dash is not among the own options. -/
theorem dashes_not_mem_ownOptions (args : List String) : "--" ∉ ownOptions args := by
  rw [ownOptions, List.mem_map]
  rintro ⟨arg, harg, hdashes⟩
  obtain ⟨rest, rfl⟩ := isOwn_iff.mp (List.mem_filter.mp harg).2
  obtain ⟨rest', h⟩ := exists_withEquals rest
  rw [h] at hdashes
  exact own_ne_dashes rest' hdashes

/-! ## Reading a command line after what a file keeps -/

variable {isFile : String → Bool} {kept args : List String}

/-- Options that were read one by one can be read together. -/
theorem exists_settings (hkept : ∀ option ∈ kept, IsOption option) :
    ∃ settings : List Setting, (∀ s ∈ settings, s.IsSound) ∧ kept = settings.map Setting.token := by
  induction kept with
  | nil => exact ⟨[], by simp, rfl⟩
  | cons option kept ih =>
    obtain ⟨⟨s, hs, hoption⟩, hrest⟩ := List.forall_mem_cons.mp hkept
    obtain ⟨settings, hsettings, rfl⟩ := ih hrest
    exact ⟨s :: settings, List.forall_mem_cons.mpr ⟨hs, hsettings⟩, by rw [hoption, List.map_cons]⟩

/-- Parsing fails just when the options cannot be read, and with the same error. -/
theorem parse_eq_error_iff {e : OptionError} : parse isFile args kept = .error e ↔
    Options.parse (kept ++ ownOptions args) = .error e := by
  cases hoptions : Options.parse (kept ++ ownOptions args) with
  | error e' =>
    have hparse : parse isFile args kept = .error e' := by
      rw [parse, hoptions]
      rfl
    rw [hparse]
    simp
  | ok o =>
    rw [parse_eq_ok_of_options hoptions]
    simp

/-- What a file keeps cannot break a command line. -/
theorem parse_error_iff (hkept : ∀ option ∈ kept, IsOption option) {e : OptionError} :
    parse isFile args kept = .error e ↔ parse isFile args [] = .error e := by
  obtain ⟨settings, hsettings, rfl⟩ := exists_settings hkept
  have hdashes := dashes_not_mem_ownOptions args
  rw [parse_eq_error_iff, parse_eq_error_iff, List.nil_append, Options.parse, Options.parse,
    Options.addAll_tokens hsettings]
  constructor
  · intro h
    exact Options.addAll_error hdashes h _
  · intro h
    exact Options.addAll_error hdashes h _

/-- Options have the last value from the command line, or else the last one that was kept, and a
switch is on where one of the two turns it on. -/
structure Overridden (kept args : List String) (o : Options) : Prop where
  value : ∀ v x, o.value? v = some x ↔
    LastGiven args v x ∨ (∀ arg ∈ args, ∀ y, ¬ Gives arg v y) ∧ LastGiven kept v x
  switch : ∀ s : Switch, o.isOn s = true ↔ s.name ∈ args ∨ s.name ∈ kept

/-- A switch is turned on by one of some settings when its name is among their options. -/
theorem switch_mem_iff {s : Switch} {settings : List Setting} :
    .switch s ∈ settings ↔ s.name ∈ settings.map Setting.token := by
  rw [List.mem_map]
  constructor
  · intro h
    exact ⟨_, h, rfl⟩
  · rintro ⟨t, ht, hname⟩
    cases t with
    | value v x =>
      exfalso
      apply equals_not_mem_switch s
      rw [← hname]
      simp [Setting.token]
    | switch t =>
      have hs : switchNames.lookup s.name = some s := lookup_switchNames.mpr rfl
      rw [lookup_switchNames.mpr hname.symm] at hs
      cases hs
      exact ht

/-- The values that some settings give are those that their options give. -/
theorem filterMap_given? (v : Valued) (settings : List Setting) :
    settings.filterMap (Setting.given? v) =
      (settings.map Setting.token).filterMap (given? v) := by
  rw [List.filterMap_map]
  congr 1
  funext s
  exact (given?_token v s).symm

/-- In what has been parsed the kept options are overridden. -/
theorem overridden_of_parse {i : Invocation} (hkept : ∀ option ∈ kept, IsOption option)
    (h : parse isFile args kept = .ok i) : Overridden kept args i.options := by
  have hdashes : "--" ∉ kept ++ ownOptions args := by
    rw [List.mem_append, not_or]
    refine ⟨?_, dashes_not_mem_ownOptions args⟩
    intro hmem
    exact Options.not_isOption_dashes (hkept _ hmem)
  obtain ⟨settings, -, htokens, hoptions⟩ :=
    Options.exists_of_addAll hdashes (options_of_parse_eq_ok h)
  constructor
  · intro v x
    have hvalue : i.options.value? v = ((args.filterMap (given? v)).getLast?).or
        (kept.filterMap (given? v)).getLast? := by
      rw [hoptions, Options.value?_applyAll, filterMap_given?, ← htokens, List.filterMap_append,
        filterMap_ownOptions, List.getLast?_append]
      cases v <;> exact Option.or_none
    rw [hvalue, Option.or_eq_some_iff, ← lastGiven_iff, ← lastGiven_iff, List.getLast?_eq_none_iff,
      List.filterMap_eq_nil_iff]
    simp only [given?_eq_none_iff]
  · intro s
    rw [hoptions, Options.isOn_applyAll, switch_mem_iff, ← htokens, List.mem_append,
      name_mem_ownOptions_iff, or_comm (a := s.name ∈ args)]
    cases s <;> simp [Options.isOn]

/-- A file of options gives one option or one warning for each of its entries, whichever way an
entry is spelled; no command line fails because of it, and what the command line gives overrides
it. -/
theorem kept_options_are_overridden (path : Path) (text : String) :
    RcFile.Taken path 1 (Text.lines text.toList) (RcFile.parse path text).options
        (RcFile.parse path text).warnings ∧
      (∀ x, IsEntry x → (¬ ∃ rest, x = "hbcxx-" ++ rest) → (¬ ∃ rest, x = "--hbcxx-" ++ rest) →
        RcFile.TakenAlike path [x, "hbcxx-" ++ x, "--hbcxx-" ++ x]) ∧
      ∀ (isFile : String → Bool) (args : List String),
        (∀ e, parse isFile args (RcFile.parse path text).options = .error e ↔
          parse isFile args [] = .error e) ∧
        ∀ i, parse isFile args (RcFile.parse path text).options = .ok i →
          Overridden (RcFile.parse path text).options args i.options := by
  have htaken := RcFile.taken_parse path text
  refine ⟨htaken, ?_, ?_⟩
  · intro x hx hshort hlong
    exact RcFile.takenAlike_prefixes hx hshort hlong
  · intro isFile args
    refine ⟨?_, ?_⟩
    · intro e
      exact parse_error_iff htaken.isOption
    · intro i hi
      exact overridden_of_parse htaken.isOption hi

/-- Three spellings of one switch in a configuration file are the same line, and a level on the
command line takes precedence over a kept one. -/
theorem kept_options_are_overridden_home :
    RcFile.TakenAlike ⟨"/home/ann/.hbcxxrc"⟩ ["verbose", "hbcxx-verbose", "--hbcxx-verbose"] ∧
      Overridden ["--hbcxx-O=2", "--hbcxx-verbose"] ["-g", "--hbcxx-O3", "m.cpp"]
        { optimization := some "3", verbose := true } := by
  obtain ⟨-, halike, hparse⟩ := kept_options_are_overridden ⟨"/home/ann/.hbcxxrc"⟩
    "# mine\n\nO2\n  hbcxx-verbose\nfrobnicate\n"
  refine ⟨?_, ?_⟩
  · apply halike "verbose"
    · exact ⟨by decide, by rintro c ⟨⟩; decide, by rintro c ⟨⟩; decide⟩
    · rintro ⟨rest, h⟩
      rw [← String.toList_inj, String.toList_append] at h
      cases h
    · rintro ⟨rest, h⟩
      rw [← String.toList_inj, String.toList_append] at h
      cases h
  · obtain ⟨-, hoverridden⟩ := hparse (fun arg => arg == "m.cpp") ["-g", "--hbcxx-O3", "m.cpp"]
    exact hoverridden
      { options := { optimization := some "3", verbose := true }
        toolsetFlags := ["-g"]
        script := some ⟨"m.cpp"⟩ } rfl

end Invocation

end CxxScript.Cli

import CxxScript.Cli.Options
import CxxScript.Proofs.Text.Trimming

/-!
# What options do

An option is the name of a switch, or the name of an option that takes a value with an equals sign
and the value behind it, `Options.add_token` and `Options.exists_of_add`. So what is wrong with a
list of options does not depend on what was read before it, `Options.addAll_error`, and what has
been read of a list is what its options do one after the other, `Options.exists_of_addAll`: the last
value that is given to an option is the one that it has, `Options.value?_applyAll`, and a switch
that was turned on stays on, `Options.isOn_applyAll`.
-/

set_option autoImplicit false

namespace CxxScript.Cli

/-! ## Beginnings of texts -/

/-- A text begins with another when it is that one and some rest. -/
theorem startsWith_iff {s start : String} :
    startsWith s start = true ↔ ∃ rest, s = start ++ rest := by
  rw [startsWith, List.isPrefixOf_iff_prefix]
  constructor
  · rintro ⟨rest, hrest⟩
    refine ⟨String.ofList rest, ?_⟩
    rw [← String.toList_inj, String.toList_append, String.toList_ofList, hrest]
  · rintro ⟨rest, rfl⟩
    exact ⟨rest.toList, (String.toList_append ..).symm⟩

/-- A text with a rest behind it begins with that text. -/
theorem startsWith_append (start rest : String) : startsWith (start ++ rest) start = true :=
  startsWith_iff.mpr ⟨rest, rfl⟩

/-- Without the start the rest is left. -/
theorem dropStart_append (start rest : String) : dropStart (start ++ rest) start.length = rest := by
  rw [dropStart, String.toList_append, ← String.length_toList, List.drop_left,
    String.ofList_toList]

/-! ## Names -/

/-- How an option that takes a value is written, without its equals sign. -/
def Valued.name : Valued → String
  | .cxx => "--hbcxx-cxx"
  | .debugger => "--hbcxx-debugger"
  | .executable => "--hbcxx-executable"
  | .optimization => "--hbcxx-O"

/-- How a switch is written. -/
def Switch.name : Switch → String
  | .help => "--hbcxx-help"
  | .saveTemps => "--hbcxx-save-temps"
  | .verbose => "--hbcxx-verbose"
  | .version => "--hbcxx-version"

/-- There is no equals sign in the name of an option that takes a value. -/
theorem equals_not_mem_valued (v : Valued) : '=' ∉ v.name.toList := by
  cases v <;> decide

/-- There is no equals sign in the name of a switch. -/
theorem equals_not_mem_switch (s : Switch) : '=' ∉ s.name.toList := by
  cases s <;> decide

/-- The options that take a value are found by their names. -/
theorem lookup_valuedNames {name : String} {v : Valued} :
    valuedNames.lookup name = some v ↔ name = v.name := by
  constructor
  · intro h
    simp only [valuedNames, List.lookup_cons, List.lookup_nil] at h
    grind [Valued.name]
  · rintro rfl
    cases v <;> decide

/-- The switches are found by their names. -/
theorem lookup_switchNames {name : String} {s : Switch} :
    switchNames.lookup name = some s ↔ name = s.name := by
  constructor
  · intro h
    simp only [switchNames, List.lookup_cons, List.lookup_nil] at h
    grind [Switch.name]
  · rintro rfl
    cases s <;> decide

/-- No option that takes a value has the name of a switch. -/
theorem lookup_valuedNames_switch (s : Switch) : valuedNames.lookup s.name = none := by
  cases s <;> decide

/-! ## Equals signs -/

/-- Where there is no equals sign, every character is another one. -/
theorem all_ne_equals {token : String} (h : '=' ∉ token.toList) :
    token.toList.all (fun c => decide (c ≠ '=')) = true := by
  rw [List.all_eq_true]
  intro c hc
  apply decide_eq_true
  rintro rfl
  exact h hc

/-- A token without an equals sign is a name alone. -/
theorem cutEquals_of_not_mem {token : String} (h : '=' ∉ token.toList) :
    cutEquals token = (token, none) := by
  have hall := all_ne_equals h
  have hdrop : token.toList.dropWhile (· ≠ '=') = [] :=
    Text.dropWhile_eq_iff.mpr ⟨token.toList, (List.append_nil _).symm, hall, by simp⟩
  have htake : (token.toList ++ []).takeWhile (· ≠ '=') = token.toList :=
    Text.takeWhile_eq_of_run hall (by simp)
  rw [List.append_nil] at htake
  rw [cutEquals, hdrop, htake]
  simp

/-- A name, an equals sign and a value are cut there, whatever the value is. -/
theorem cutEquals_append {name : String} (h : '=' ∉ name.toList) (value : String) :
    cutEquals (name ++ "=" ++ value) = (name, some value) := by
  have hall := all_ne_equals h
  have hstop : ∀ c, ('=' :: value.toList).head? = some c → decide (c ≠ '=') = false := by
    rintro c hc
    cases hc
    decide
  have hsplit : (name ++ "=" ++ value).toList = name.toList ++ '=' :: value.toList := by
    rw [String.append_assoc, String.toList_append, String.toList_append]
    rfl
  have hdrop : (name.toList ++ '=' :: value.toList).dropWhile (· ≠ '=') = '=' :: value.toList :=
    Text.dropWhile_eq_iff.mpr ⟨name.toList, rfl, hall, hstop⟩
  rw [cutEquals, hsplit, hdrop, Text.takeWhile_eq_of_run hall hstop]
  simp

/-- A token that is cut into a name and a value is the two with an equals sign between them. -/
theorem eq_of_cutEquals {token name value : String} (h : cutEquals token = (name, some value)) :
    token = name ++ "=" ++ value := by
  have hsplit := List.takeWhile_append_dropWhile (p := (· ≠ '=')) (l := token.toList)
  have hhead := List.head?_dropWhile_not (· ≠ '=') token.toList
  unfold cutEquals at h
  dsimp only at h
  split at h
  · cases h
  · next c rest hrest =>
    cases h
    rw [hrest] at hsplit hhead
    obtain rfl : c = '=' := by simpa using hhead
    rw [← String.toList_inj]
    simpa using hsplit.symm

/-- A token that is not cut is its name. -/
theorem eq_of_cutEquals_none {token name : String} (h : cutEquals token = (name, none)) :
    token = name := by
  have hsplit := List.takeWhile_append_dropWhile (p := (· ≠ '=')) (l := token.toList)
  unfold cutEquals at h
  dsimp only at h
  split at h
  · next hrest =>
    cases h
    rw [hrest, List.append_nil] at hsplit
    rw [hsplit, String.ofList_toList]
  · cases h

/-- An optimization level that stands right behind the `O` gets an equals sign. -/
theorem withEquals_level {level : String} (h : ¬ ∃ rest, level = "=" ++ rest) :
    withEquals ("--hbcxx-O" ++ level) = "--hbcxx-O" ++ "=" ++ level := by
  have hlevel : dropStart ("--hbcxx-O" ++ level) "--hbcxx-O".length = level := dropStart_append _ _
  simp only [withEquals, hlevel]
  rw [if_pos (startsWith_append _ _), if_neg (mt startsWith_iff.mp h)]

/-- Any other argument stays as it is. -/
theorem withEquals_of_not_level {arg : String}
    (h : ∀ level, arg = "--hbcxx-O" ++ level → ∃ rest, level = "=" ++ rest) :
    withEquals arg = arg := by
  by_cases hstart : startsWith arg "--hbcxx-O" = true
  · obtain ⟨level, rfl⟩ := startsWith_iff.mp hstart
    have hlevel : dropStart ("--hbcxx-O" ++ level) "--hbcxx-O".length = level :=
      dropStart_append _ _
    simp only [withEquals, hlevel]
    rw [if_pos hstart, if_pos (startsWith_iff.mpr (h level rfl))]
  · simp only [withEquals]
    rw [if_neg hstart]

/-- Either the optimization level stands right behind the `O`, or nothing is changed. -/
theorem withEquals_cases (arg : String) :
    (∃ level, arg = "--hbcxx-O" ++ level ∧ ¬ (∃ rest, level = "=" ++ rest) ∧
      withEquals arg = "--hbcxx-O" ++ "=" ++ level) ∨ withEquals arg = arg := by
  by_cases h : ∀ level, arg = "--hbcxx-O" ++ level → ∃ rest, level = "=" ++ rest
  · exact .inr (withEquals_of_not_level h)
  · left
    obtain ⟨level, hlevel⟩ := Classical.not_forall.mp h
    obtain ⟨rfl, hequals⟩ := Classical.not_imp.mp hlevel
    exact ⟨level, rfl, hequals, withEquals_level hequals⟩

/-- None of the tool's own options is the double dash. -/
theorem own_ne_dashes (rest : String) : "--hbcxx-" ++ rest ≠ "--" := by
  intro h
  rw [← String.toList_inj, String.toList_append] at h
  cases h

/-- What begins as an option of the tool still does. -/
theorem exists_withEquals (rest : String) :
    ∃ rest', withEquals ("--hbcxx-" ++ rest) = "--hbcxx-" ++ rest' := by
  rcases withEquals_cases ("--hbcxx-" ++ rest) with ⟨level, -, -, h⟩ | h
  · refine ⟨"O=" ++ level, ?_⟩
    rw [h, ← String.append_assoc]
    rfl
  · exact ⟨rest, h⟩

/-! ## What an option does -/

/-- What an option does: it gives a value, or turns a switch on. -/
inductive Setting where
  | value (v : Valued) (x : String)
  | switch (s : Switch)

namespace Setting

/-- How an option is written. -/
def token : Setting → String
  | .value v x => v.name ++ "=" ++ x
  | .switch s => s.name

/-- Only a path may not be empty. -/
def IsSound : Setting → Prop
  | .value v x => v = .executable → x ≠ ""
  | .switch _ => True

/-- Apply a setting. -/
def apply (o : Options) : Setting → Options
  | .value v x => o.setValue x v
  | .switch s => o.turnOn s

end Setting

/-- A text is an option. -/
def IsOption (token : String) : Prop := ∃ s : Setting, s.IsSound ∧ token = s.token

namespace Options

/-- To read the option of a sound setting is to apply the setting. -/
theorem add_token {s : Setting} (hs : s.IsSound) (o : Options) :
    o.add s.token = .ok (s.apply o) := by
  cases s with
  | value v x =>
    have hlookup : valuedNames.lookup v.name = some v := lookup_valuedNames.mpr rfl
    have hsound : ¬ (v = .executable ∧ x = "") := by
      rintro ⟨hv, hx⟩
      exact hs hv hx
    rw [add, Setting.token, cutEquals_append (equals_not_mem_valued v)]
    simp [hlookup, hsound, Setting.apply]
  | switch s =>
    have hlookup : switchNames.lookup s.name = some s := lookup_switchNames.mpr rfl
    rw [add, Setting.token, cutEquals_of_not_mem (equals_not_mem_switch s)]
    simp [hlookup, lookup_valuedNames_switch, Setting.apply]

/-- An option that can be read is that of a sound setting, and does what the setting does. -/
theorem exists_of_add {o o' : Options} {token : String} (h : o.add token = .ok o') :
    ∃ s : Setting, s.IsSound ∧ token = s.token ∧ o' = s.apply o := by
  unfold add at h
  rcases hcut : cutEquals token with ⟨name, value?⟩
  rw [hcut] at h
  dsimp only at h
  split at h
  · next v x hv =>
    obtain rfl := lookup_valuedNames.mp hv
    split at h
    · cases h
    · next hsound =>
      cases h
      refine ⟨.value v x, ?_, eq_of_cutEquals hcut, rfl⟩
      intro hpath hempty
      apply hsound
      simp [hpath, hempty]
  · cases h
  · next s hv hs =>
    obtain rfl := lookup_switchNames.mp hs
    cases h
    exact ⟨.switch s, trivial, eq_of_cutEquals_none hcut, rfl⟩
  · cases h
  · cases h

/-- What is wrong with a token does not depend on what was read before it. -/
theorem add_error {o : Options} {token : String} {e : OptionError} (h : o.add token = .error e)
    (o' : Options) : o'.add token = .error e := by
  unfold add at h ⊢
  dsimp only at h ⊢
  split at h
  · split at h
    · next hempty =>
      cases h
      exact if_pos hempty
    · cases h
  · exact h
  · cases h
  · exact h
  · exact h

/-- Whether a token is an option does not depend on what was read before it. -/
theorem isOption_iff {token : String} (o : Options) :
    IsOption token ↔ ∃ o', o.add token = .ok o' := by
  constructor
  · rintro ⟨s, hs, rfl⟩
    exact ⟨_, add_token hs o⟩
  · rintro ⟨o', h⟩
    obtain ⟨s, hs, htoken, -⟩ := exists_of_add h
    exact ⟨s, hs, htoken⟩

/-- The double dash is no option. -/
theorem not_isOption_dashes : ¬ IsOption "--" := by
  rw [isOption_iff {}]
  rintro ⟨o', h⟩
  have herror : ({} : Options).add "--" = .error ⟨.unknownArgument, "--"⟩ := rfl
  rw [herror] at h
  cases h

/-! ## What a list of options does -/

/-- Options are read one after the other. -/
theorem addAll_cons {token : String} (h : token ≠ "--") (o : Options) (rest : List String) :
    o.addAll (token :: rest) = (o.add token).bind (·.addAll rest) :=
  if_neg h

/-- What has been read once some options have done what they do, one after the other. -/
def applyAll (o : Options) (settings : List Setting) : Options := settings.foldl Setting.apply o

/-- Options are read one after the other, whatever stands behind them. -/
theorem addAll_tokens {settings : List Setting} (hs : ∀ s ∈ settings, s.IsSound) (o : Options)
    (rest : List String) :
    o.addAll (settings.map Setting.token ++ rest) = (o.applyAll settings).addAll rest := by
  induction settings generalizing o with
  | nil => rfl
  | cons s settings ih =>
    obtain ⟨hfirst, hrest⟩ := List.forall_mem_cons.mp hs
    have hdashes : s.token ≠ "--" := by
      intro h
      exact not_isOption_dashes ⟨s, hfirst, h.symm⟩
    rw [List.map_cons, List.cons_append, addAll_cons hdashes, add_token hfirst o]
    exact ih hrest (s.apply o)

/-- Options that can all be read are those of sound settings, which are applied in order. -/
theorem exists_of_addAll {o o' : Options} {tokens : List String} (hdashes : "--" ∉ tokens)
    (h : o.addAll tokens = .ok o') : ∃ settings : List Setting, (∀ s ∈ settings, s.IsSound) ∧
      tokens = settings.map Setting.token ∧ o' = o.applyAll settings := by
  induction tokens generalizing o with
  | nil =>
    cases h
    exact ⟨[], by simp, rfl, rfl⟩
  | cons token tokens ih =>
    obtain ⟨hfirst, hrest⟩ := not_or.mp (mt List.mem_cons.mpr hdashes)
    rw [addAll_cons (Ne.symm hfirst)] at h
    cases hadd : o.add token with
    | error e =>
      rw [hadd] at h
      cases h
    | ok o₁ =>
      rw [hadd] at h
      obtain ⟨s, hs, rfl, rfl⟩ := exists_of_add hadd
      obtain ⟨settings, hsettings, rfl, rfl⟩ := ih hrest h
      exact ⟨s :: settings, List.forall_mem_cons.mpr ⟨hs, hsettings⟩, rfl, rfl⟩

/-- What is wrong with a list of options does not depend on what was read before it. -/
theorem addAll_error {o : Options} {tokens : List String} {e : OptionError}
    (hdashes : "--" ∉ tokens) (h : o.addAll tokens = .error e) (o' : Options) :
    o'.addAll tokens = .error e := by
  induction tokens generalizing o o' with
  | nil => cases h
  | cons token tokens ih =>
    obtain ⟨hfirst, hrest⟩ := not_or.mp (mt List.mem_cons.mpr hdashes)
    rw [addAll_cons (Ne.symm hfirst)] at h ⊢
    cases hadd : o.add token with
    | error e' =>
      rw [hadd] at h
      cases h
      rw [add_error hadd o']
      rfl
    | ok o₁ =>
      obtain ⟨s, hs, rfl, -⟩ := exists_of_add hadd
      rw [hadd] at h
      rw [add_token hs o']
      exact ih hrest h _

/-! ## Values and switches -/

/-- The value that an option has. -/
def value? (o : Options) : Valued → Option String
  | .cxx => o.cxx
  | .debugger => o.debugger
  | .executable => o.executable.map Path.text
  | .optimization => o.optimization

/-- Whether a switch is on. -/
def isOn (o : Options) : Switch → Bool
  | .help => o.help
  | .saveTemps => o.saveTemps
  | .verbose => o.verbose
  | .version => o.version

/-- To give an option a value changes that of no other option. -/
@[simp] theorem value?_setValue (o : Options) (v w : Valued) (x : String) :
    (o.setValue x v).value? w = if v = w then some x else o.value? w := by
  cases v <;> cases w <;> rfl

/-- To turn a switch on changes no value. -/
@[simp] theorem value?_turnOn (o : Options) (s : Switch) (v : Valued) :
    (o.turnOn s).value? v = o.value? v := by
  cases s <;> cases v <;> rfl

/-- To give an option a value turns no switch on. -/
@[simp] theorem isOn_setValue (o : Options) (v : Valued) (x : String) (s : Switch) :
    (o.setValue x v).isOn s = o.isOn s := by
  cases v <;> cases s <;> rfl

/-- To turn a switch on leaves the others as they are. -/
@[simp] theorem isOn_turnOn (o : Options) (s t : Switch) :
    (o.turnOn s).isOn t = (decide (s = t) || o.isOn t) := by
  cases s <;> cases t <;> rfl

end Options

/-- The value that a setting gives to an option. -/
def Setting.given? (v : Valued) : Setting → Option String
  | .value w x => if w = v then some x else none
  | .switch _ => none

namespace Options

/-- The last value that is given to an option is the one that it has. -/
theorem value?_applyAll (o : Options) (settings : List Setting) (v : Valued) :
    (o.applyAll settings).value? v =
      (settings.filterMap (Setting.given? v)).getLast?.or (o.value? v) := by
  induction settings generalizing o with
  | nil => rfl
  | cons s settings ih =>
    have hrest := ih (s.apply o)
    rw [applyAll] at hrest ⊢
    rw [List.foldl_cons, hrest]
    cases s with
    | switch s => simp [Setting.apply, Setting.given?]
    | value w x =>
      by_cases hw : w = v
      · simp [Setting.apply, Setting.given?, hw, List.getLast?_cons]
      · simp [Setting.apply, Setting.given?, hw]

/-- A switch that was turned on stays on. -/
theorem isOn_applyAll (o : Options) (settings : List Setting) (s : Switch) :
    (o.applyAll settings).isOn s = true ↔ .switch s ∈ settings ∨ o.isOn s = true := by
  induction settings generalizing o with
  | nil => simp [applyAll]
  | cons t settings ih =>
    have hrest := ih (t.apply o)
    rw [applyAll] at hrest ⊢
    rw [List.foldl_cons, hrest, List.mem_cons]
    cases t with
    | value w x => simp [Setting.apply]
    | switch t =>
      simp only [Setting.apply, isOn_turnOn, Bool.or_eq_true, decide_eq_true_eq,
        Setting.switch.injEq, eq_comm (a := t)]
      rw [or_left_comm, or_assoc]

end Options

end CxxScript.Cli

import CxxScript.Proofs.Build.Resolving

/-!
# Compilers without words

The text that names a compiler may have no words, `Wordless`: blanks, quotes with nothing between
them. A toolset that looks at the words of such a compiler alone finds none and fails. But where a
compiler that was asked for is put behind a compiler cache, the toolset looks at the two together,
and the cache is taken for the compiler: `compiler_wordless`. What carries this over the calls of a
toolset is that its choice is one of the compiler in force, `Owns`, and that this is the one that
was asked for last before there was a choice, `inForce?`.
-/

set_option autoImplicit false

namespace CxxScript

namespace Text.Words

/-! ## Texts without words -/

/-- A text without words, read from where a quote is open or none is. -/
inductive Wordless : Option Char → List Char → Prop where
  | nil {quote : Option Char} : Wordless quote []
  /-- A backslash that stands last takes nothing. -/
  | backslash {quote : Option Char} : Wordless quote ['\\']
  | blank {c : Char} {rest : List Char} (hplain : c ≠ '\\' ∧ c ≠ '\'' ∧ c ≠ '"')
      (hblank : isBlank c = true) (hrest : Wordless none rest) : Wordless none (c :: rest)
  | opens {c : Char} {rest : List Char} (hquote : c = '\'' ∨ c = '"')
      (hrest : Wordless (some c) rest) : Wordless none (c :: rest)
  | closes {q : Char} {rest : List Char} (hplain : q ≠ '\\') (hrest : Wordless none rest) :
      Wordless (some q) (q :: rest)

namespace State

/-- There are words when one is finished or at hand. -/
theorem words_eq_nil_iff {s : State} : s.words = [] ↔ s.done = [] ∧ s.current = [] := by
  rw [words, List.reverse_eq_nil_iff, endWord]
  split
  · next hempty => simp [List.isEmpty_iff.mp hempty]
  · next hword =>
    rw [List.isEmpty_iff] at hword
    simp [hword]

/-- What is taken into a word makes a word. -/
theorem words_take_ne_nil (s : State) (c : Char) : (s.take c).words ≠ [] := by
  rw [Ne, words_eq_nil_iff, take]
  simp

/-- No character takes words away. -/
theorem words_step_ne_nil {s : State} (hs : s.words ≠ []) (c : Char) : (s.step c).words ≠ [] := by
  have hsame : ∀ quote escaped, ({ s with quote, escaped } : State).words ≠ [] := by
    intro quote escaped
    rw [Ne, words_eq_nil_iff] at hs ⊢
    exact hs
  have hend : s.endWord.words ≠ [] := by
    rw [Ne, words_eq_nil_iff] at hs ⊢
    unfold endWord
    split
    · exact hs
    · simp
  unfold step
  split
  · exact words_take_ne_nil _ c
  · split
    · exact hsame _ _
    · split
      · split
        · exact hsame _ _
        · exact words_take_ne_nil s c
      · split
        · exact hsame _ _
        · split
          · exact hend
          · exact words_take_ne_nil s c

/-- A blank between words is passed over. -/
theorem step_blank {c : Char} (hplain : c ≠ '\\' ∧ c ≠ '\'' ∧ c ≠ '"') (hblank : isBlank c = true) :
    step {} c = {} := by
  simp [step, endWord, hplain, hblank]

/-- A quote is opened. -/
theorem step_opens {c : Char} (hquote : c = '\'' ∨ c = '"') : step {} c = { quote := some c } := by
  have hslash : c ≠ '\\' := by rcases hquote with rfl | rfl <;> decide
  simp [step, hslash, hquote]

/-- The quote that is open is closed. -/
theorem step_closes {q : Char} (hplain : q ≠ '\\') : step { quote := some q } q = {} := by
  simp [step, hplain]

end State

/-- No text takes words away. -/
theorem words_scan_ne_nil {s : State} (hs : s.words ≠ []) (text : List Char) :
    (scan s text).words ≠ [] := by
  induction text generalizing s with
  | nil => exact hs
  | cons c rest ih => exact ih (State.words_step_ne_nil hs c)

/-- A backslash takes whatever follows into a word. -/
theorem words_scan_escaped {quote : Option Char} {text : List Char} :
    (scan { quote, escaped := true } text).words = [] ↔ text = [] := by
  cases text with
  | nil => exact iff_of_true rfl rfl
  | cons c rest =>
    refine iff_of_false (words_scan_ne_nil ?_ rest) (List.cons_ne_nil c rest)
    exact State.words_take_ne_nil _ c

/-- What is read as no word is a text without words. -/
theorem words_scan_eq_nil_iff {quote : Option Char} {text : List Char} :
    (scan { quote } text).words = [] ↔ Wordless quote text := by
  constructor
  · intro hnone
    induction text generalizing quote with
    | nil => exact .nil
    | cons c rest ih =>
      have hnone : (scan (State.step { quote } c) rest).words = [] := hnone
      have htake : ¬ State.step { quote } c = State.take { quote } c := fun hstep =>
        words_scan_ne_nil (State.words_take_ne_nil _ c) rest (hstep ▸ hnone)
      by_cases hslash : c = '\\'
      · subst hslash
        have hrest : rest = [] := words_scan_escaped.mp hnone
        exact hrest ▸ .backslash
      · cases quote with
        | some q =>
          by_cases hq : c = q
          · subst hq
            exact .closes hslash (ih (State.step_closes hslash ▸ hnone))
          · exact absurd (by simp [State.step, hslash, hq]) htake
        | none =>
          by_cases hquote : c = '\'' ∨ c = '"'
          · exact .opens hquote (ih (State.step_opens hquote ▸ hnone))
          · by_cases hblank : isBlank c = true
            · have hplain := And.intro hslash (not_or.mp hquote)
              exact .blank hplain hblank (ih (State.step_blank hplain hblank ▸ hnone))
            · exact absurd (by simp [State.step, hslash, hquote, hblank]) htake
  · intro hwordless
    induction hwordless with
    | nil => rfl
    | backslash => rfl
    | blank hplain hblank _ ih =>
      rw [scan, List.foldl_cons, State.step_blank hplain hblank]
      exact ih
    | opens hquote _ ih =>
      rw [scan, List.foldl_cons, State.step_opens hquote]
      exact ih
    | closes hplain _ ih =>
      rw [scan, List.foldl_cons, State.step_closes hplain]
      exact ih

/-- A text has no words when it is one without words. -/
theorem split_eq_nil_iff {text : String} : split text = [] ↔ Wordless none text.toList :=
  words_scan_eq_nil_iff

end Text.Words

namespace Toolset

open Host Text.Words

variable {m : Machine} {cfg : Config}

/-! ## The compiler in force -/

/-- The compiler that is in force after some calls: the one that was set explicitly, else the last
one that was asked for before there was a choice. -/
def inForce? (cfg : Config) (calls : List Call) : Option String :=
  cfg.cxx.or ((calls.takeWhile fun c => c.choice?.isNone).flatMap Call.asked).getLast?

/-- The words are those of a compiler, behind a compiler cache unless it was set explicitly. -/
def Owns (cfg : Config) (compiler : String) (words : List String) : Prop :=
  words ≠ [] ∧ (words = split compiler ∨ cfg.cxx = none ∧ words = "ccache" :: split compiler)

/-- The words behind a compiler cache, or behind none. -/
theorem launcherWords_append (ccache : Bool) (ws : List String) :
    ToolchainRecord.launcherWords ccache ++ ws = if ccache then "ccache" :: ws else ws := by
  cases ccache <;> rfl

/-- A toolset that has not chosen answers with the words of the compiler in force, behind those of a
compiler cache where it was asked for. -/
theorem Choice.eq_nonEmpty {h : Host} {asked? : Option String} {compiler : String}
    {answer : Except BuildToolError (List String)} (hc : Choice m cfg h asked? answer)
    (hforce : cfg.cxx.or asked? = some compiler) :
    ∃ ccache, (ccache = true ↔ cfg.cxx = none ∧ EndsWell m cacheQuery h) ∧
      answer = nonEmpty (if ccache then "ccache" :: split compiler else split compiler) := by
  cases hc with
  | explicit hcxx =>
    rw [hcxx, Option.some_or] at hforce
    cases hforce
    exact ⟨false, by simp [hcxx], rfl⟩
  | @asked _ ccache hcxx hcache =>
    rw [hcxx, Option.none_or] at hforce
    cases hforce
    exact ⟨ccache, by simp [hcxx, hcache], by rw [launcherWords_append]⟩
  | remembered hcxx => simp [hcxx] at hforce
  | found hcxx => simp [hcxx] at hforce
  | missing hcxx => simp [hcxx] at hforce

/-- A choice is one of the compiler in force. -/
theorem Choice.owns {h : Host} {asked? : Option String} {words : List String} {compiler : String}
    {answer : Except BuildToolError (List String)} (hc : Choice m cfg h asked? answer)
    (hforce : cfg.cxx.or asked? = some compiler) (hanswer : answer = .ok words) :
    Owns cfg compiler words := by
  refine ⟨hc.ne_nil hanswer, ?_⟩
  obtain ⟨ccache, hcache, rfl⟩ := hc.eq_nonEmpty hforce
  have hwords := eq_of_nonEmpty hanswer
  cases ccache with
  | true => exact .inr ⟨(hcache.mp rfl).1, hwords⟩
  | false => exact .inl hwords

/-- Where there is a choice, it is one of the compiler that the toolset holds. -/
def Sincere (ts : Toolset) : Prop := ∀ compiler words,
  ts.config.cxx.or ts.asked? = some compiler → ts.chosen? = some words →
    Owns ts.config compiler words

/-- A toolset that has chosen does not take note of a compiler that is asked for. -/
theorem foldl_asking_of_chosen {ts : Toolset} {words : List String}
    (hchosen : ts.chosen? = some words) (asked : List String) : asked.foldl asking ts = ts := by
  have hasking : ∀ compiler, ts.asking compiler = ts := fun compiler => by
    rw [asking, hchosen, Option.isSome_some, Bool.or_true, if_pos rfl]
  induction asked with
  | nil => rfl
  | cons compiler rest ih => rw [List.foldl_cons, hasking, ih]

/-- No call leaves a toolset a choice of another compiler. -/
theorem Call.Made.sincere {ts ts' : Toolset} {c : Call} (hc : c.Made m ts ts')
    (hts : ts.Sincere) : ts'.Sincere := by
  intro compiler words hforce hwords
  have hturns := hc.turns
  rw [hturns.config] at hforce ⊢
  cases hchosen : ts.chosen? with
  | some words₀ =>
    rw [hturns.asked?, foldl_asking_of_chosen hchosen] at hforce
    rw [hturns.chosen?, hchosen, Option.some_or] at hwords
    cases hwords
    exact hts compiler words hforce hchosen
  | none =>
    rw [hturns.chosen?, hchosen, Option.none_or] at hwords
    cases c with
    | pushFlag flag position => cases hwords
    | pushFlags run position => cases hwords
    | compiler answer =>
      obtain ⟨h, h', hrun⟩ := hc
      have hrun : (ts.compiler m).run h = ((answer, ts'), h') := hrun
      have hchoice := ((leads_of_run hrun _).mp (compiler_unsettled hchosen m h)).1
      have hasked : ts'.asked? = ts.asked? := hturns.asked?
      cases answer with
      | error e => cases hwords
      | ok words₀ =>
        cases hwords
        exact hchoice.owns (hasked ▸ hforce) rfl

/-- After any calls there is no choice but of the compiler that the toolset holds. -/
theorem Calls.sincere {ts ts' : Toolset} {calls : List Call} (hcalls : Calls m ts calls ts')
    (hts : ts.Sincere) : ts'.Sincere := by
  induction hcalls with
  | nil ts => exact hts
  | cons hmade _ ih => exact ih (hmade.sincere hts)

/-- A toolset that has chosen holds the same compiler for good. -/
theorem Calls.asked?_of_chosen {ts ts' : Toolset} {calls : List Call}
    (hcalls : Calls m ts calls ts') {words : List String} (hchosen : ts.chosen? = some words) :
    ts'.asked? = ts.asked? := by
  induction hcalls with
  | nil ts => rfl
  | cons hmade _ ih =>
    rw [ih (by rw [hmade.turns.chosen?, hchosen, Option.some_or]), hmade.turns.asked?,
      foldl_asking_of_chosen hchosen]

/-- A toolset holds the compiler that was asked for last before there was a choice. -/
theorem Calls.asked?_eq {ts ts' : Toolset} {calls : List Call} (hcalls : Calls m ts calls ts')
    (hcxx : ts.config.cxx = none) (hnone : ts.chosen? = none) :
    ts'.asked? = ((calls.takeWhile fun c => c.choice?.isNone).flatMap Call.asked).getLast?.or
      ts.asked? := by
  induction hcalls with
  | nil ts => rfl
  | @cons ts ts₁ ts₂ c calls hmade hlater ih =>
    have hturns := hmade.turns
    have hlast : ts₁.asked? = c.asked.getLast?.or ts.asked? :=
      hturns.asked?.trans (asked?_foldl_asking hcxx hnone c.asked)
    have hchosen : ts₁.chosen? = c.choice? := by rw [hturns.chosen?, hnone, Option.none_or]
    cases hchoice : c.choice? with
    | none =>
      rw [ih (hturns.config ▸ hcxx) (hchosen.trans hchoice), hlast,
        List.takeWhile_cons_of_pos (by rw [hchoice]; rfl), List.flatMap_cons,
        List.getLast?_append, Option.or_assoc]
    | some words =>
      -- Only a call for the compiler is answered with a choice, and that asks for none.
      have hasked : c.asked = [] := by
        cases c with
        | pushFlag flag position => cases hchoice
        | pushFlags run position => cases hchoice
        | compiler answer => rfl
      rw [hlater.asked?_of_chosen (hchosen.trans hchoice), hlast, hasked,
        List.takeWhile_cons_of_neg (by rw [hchoice]; simp)]
      rfl

/-- The compiler that is in force is the one that the toolset holds. -/
theorem Calls.inForce?_eq {ts : Toolset} {calls : List Call}
    (hcalls : Calls m (ofConfig cfg) calls ts) :
    inForce? cfg calls = ts.config.cxx.or ts.asked? := by
  have hconfig : ts.config = cfg := hcalls.config
  rw [inForce?, hconfig]
  cases hcxx : cfg.cxx with
  | some explicit => rfl
  | none =>
    rw [hcalls.asked?_eq hcxx rfl]
    show _ = none.or (Option.or _ none)
    rw [Option.or_none]

/-! ## Answers without words of the compiler -/

/-- Whether a compiler cache stands for a compiler without words: it answers, or has been chosen
before. -/
def CacheAlone (m : Machine) (cfg : Config) (ts : Toolset) (h : Host) : Prop :=
  cfg.cxx = none ∧ (ts.chosen?.isSome = true ∨ EndsWell m cacheQuery h)

/-- What is answered to a compiler that is in force, by whether a compiler cache stands alone for
one without words. -/
structure Answers (cfg : Config) (compiler : String) (alone : Prop)
    (answer : Except BuildToolError (List String)) : Prop where
  /-- A compiler is called by its own words, behind a compiler cache unless it was set
  explicitly. -/
  owns : ∀ words, answer = .ok words → Owns cfg compiler words
  /-- A compiler that has words is always called. -/
  called : ¬ Wordless none compiler.toList → ∃ words, answer = .ok words ∧
    ∃ word ∈ split compiler, word ∈ words
  /-- One without words fails for the want of them, unless the cache is called alone. -/
  failed : Wordless none compiler.toList → ¬ alone → answer = .error .emptyCompiler
  alone : Wordless none compiler.toList → alone → answer = .ok ["ccache"]

/-- A compiler that is called by its own words is called by one of them, if it has any. -/
theorem Owns.exists_mem {compiler : String} {words : List String} (ho : Owns cfg compiler words)
    (hne : split compiler ≠ []) : ∃ word ∈ split compiler, word ∈ words := by
  obtain ⟨word, hword⟩ := List.exists_mem_of_ne_nil _ hne
  refine ⟨word, hword, ?_⟩
  rcases ho.2 with rfl | ⟨-, rfl⟩
  · exact hword
  · exact List.mem_cons_of_mem _ hword

/-- The answer to a compiler that is in force. One that has words is always called by them. One
without words fails for the want of them, except where it was asked for and a compiler cache answers
or has been chosen for it before: the cache is called alone then. -/
theorem compiler_wordless {calls : List Call} {ts : Toolset} {compiler : String}
    (hcalls : Calls m (ofConfig cfg) calls ts) (hforce : inForce? cfg calls = some compiler)
    (h : Host) : Leads (ts.compiler m) h fun r _ =>
      Answers cfg compiler (CacheAlone m cfg ts h) r.1 := by
  have hconfig : ts.config = cfg := hcalls.config
  have hsincere : ts.Sincere := hcalls.sincere fun _ words _ hwords => by cases hwords
  rw [hcalls.inForce?_eq, hconfig] at hforce
  cases hchosen : ts.chosen? with
  | some words =>
    have howns : Owns cfg compiler words := by
      have howns := hsincere compiler words (hconfig ▸ hforce) hchosen
      rwa [hconfig] at howns
    rw [leads_of_run (compiler_settled hchosen m h)]
    refine ⟨fun words' hwords => ?_, fun hworded => ?_, fun hwordless halone => ?_,
      fun hwordless halone => ?_⟩
    · cases hwords
      exact howns
    · exact ⟨words, rfl, howns.exists_mem (mt split_eq_nil_iff.mp hworded)⟩
    · rcases howns.2 with hsame | ⟨hcxx, -⟩
      · exact absurd (hsame.trans (split_eq_nil_iff.mpr hwordless)) howns.1
      · exact absurd ⟨hcxx, .inl (by rw [hchosen]; rfl)⟩ halone
    · rcases howns.2 with hsame | ⟨-, hcached⟩
      · exact absurd (hsame.trans (split_eq_nil_iff.mpr hwordless)) howns.1
      · rw [split_eq_nil_iff.mpr hwordless] at hcached
        rw [hcached]
  | none =>
    refine (compiler_unsettled hchosen m h).mono fun r _ hr => ?_
    have hchoice : Choice m cfg h ts.asked? r.1 := hconfig ▸ hr.1
    obtain ⟨ccache, hcache, hanswer⟩ := hchoice.eq_nonEmpty hforce
    have halone : CacheAlone m cfg ts h ↔ ccache = true := by
      rw [CacheAlone, hchosen, hcache]
      simp
    refine ⟨fun words hwords => hchoice.owns hforce hwords, fun hworded => ?_,
      fun hwordless hnot => ?_, fun hwordless hcached => ?_⟩
    · have hne := mt split_eq_nil_iff.mp hworded
      have hok : ∃ words, r.1 = .ok words := by
        rw [hanswer, nonEmpty, if_neg (by cases ccache <;> simp [hne])]
        exact ⟨_, rfl⟩
      obtain ⟨words, hwords⟩ := hok
      exact ⟨words, hwords, (hchoice.owns hforce hwords).exists_mem hne⟩
    · rw [halone] at hnot
      rw [hanswer, if_neg hnot, split_eq_nil_iff.mpr hwordless]
      rfl
    · rw [hanswer, if_pos (halone.mp hcached), split_eq_nil_iff.mpr hwordless]
      rfl

/-- Two compilers are asked for, the last one without words. -/
def emptyCalls : List Call :=
  [.pushFlags ["--hbcxx-cxx=cc", "-lm"] .normal, .pushFlag "--hbcxx-cxx= '' " .early]

/-- A compiler without words is asked for last. On a host without a compiler cache that fails, on
one with a cache the cache is called alone. -/
theorem compiler_wordless_empty :
    ∃ ts, Calls willing (ofConfig openConfig) emptyCalls ts ∧
      inForce? openConfig emptyCalls = some " '' " ∧
      ((ts.compiler willing).run lacking).1.1 = .error .emptyCompiler ∧
      ((ts.compiler willing).run caching).1.1 = .ok ["ccache"] ∧
      Answers openConfig " '' " (CacheAlone willing openConfig ts caching) (.ok ["ccache"]) := by
  let ts : Toolset := emptyCalls.foldl (fun ts c => c.after ts) (ofConfig openConfig)
  have hcalls : Calls willing (ofConfig openConfig) emptyCalls ts :=
    .cons ⟨lacking, _, rfl⟩ (.cons ⟨lacking, _, rfl⟩ (.nil _))
  have hforce : inForce? openConfig emptyCalls = some " '' " := by decide +kernel
  have hcached : ((ts.compiler willing).run caching).1.1 = .ok ["ccache"] := by rfl
  refine ⟨ts, hcalls, hforce, by rfl, hcached, ?_⟩
  obtain ⟨⟨answer, ts'⟩, h', hrun⟩ := exists_run (ts.compiler willing) caching
  have hanswers := (leads_of_run hrun _).mp (compiler_wordless hcalls hforce caching)
  rw [hrun] at hcached
  cases hcached
  exact hanswers

end Toolset

end CxxScript

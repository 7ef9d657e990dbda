import CxxScript.Proofs.Text.Trimming
import CxxScript.Source.Include
import Mathlib.Data.List.TakeWhile

/-!
# The grammar of include lines

An include line is `#`, the word `include` and a target between its delimiters, with gaps in front
of each of the three; what stands behind the closing delimiter does not matter. `Include.Names` says
so of a line and of the header that it names, and a line is read as naming a header just when it
does: `Include.ofLine?_eq_some_iff`. So a line names one header at most, and each header that can be
written between its delimiters is read again, `Include.ofLine?_grammar`.
-/

set_option autoImplicit false

namespace CxxScript.Source.Include

open Text

/-- A text that begins with a target between its delimiters. -/
inductive Delimited : List Char → Include → Prop
  | beside {target : String} (hne : target ≠ "") (hopen : '"' ∉ target.toList)
      (rest : List Char) : Delimited ('"' :: (target.toList ++ '"' :: rest)) (.beside target)
  | system {target : String} (hne : target ≠ "") (hopen : '>' ∉ target.toList)
      (rest : List Char) : Delimited ('<' :: (target.toList ++ '>' :: rest)) (.system target)

/-- A line that names a header. -/
inductive Names : List Char → Include → Prop
  | mk {gap gap' gap'' text : List Char} {i : Include} (hgap : gap.all isGap = true)
      (hgap' : gap'.all isGap = true) (hgap'' : gap''.all isGap = true) (htext : Delimited text i) :
      Names (gap ++ '#' :: (gap' ++ ("include".toList ++ (gap'' ++ text)))) i

/-- Behind a text that is expected stands the rest. -/
theorem after?_eq_some_iff {expected s rest : List Char} :
    after? expected s = some rest ↔ s = expected ++ rest := by
  unfold after?
  constructor
  · intro h
    split at h
    · next hprefix =>
      obtain ⟨behind, rfl⟩ := List.isPrefixOf_iff_prefix.mp hprefix
      rw [List.drop_left] at h
      rw [Option.some.inj h]
    · cases h
  · rintro rfl
    rw [if_pos (List.isPrefixOf_iff_prefix.mpr (List.prefix_append _ _)), List.drop_left]

/-- A closing delimiter ends what is named, which may not be empty. -/
theorem until?_of_closed {close : Char} {run : List Char} (hrun : close ∉ run) (rest : List Char) :
    until? close (run ++ close :: rest) = if run = [] then none else some (String.ofList run) := by
  have hall : run.all (fun c => decide (c ≠ close)) = true := by
    rw [List.all_eq_true]
    exact fun c hc => decide_eq_true (ne_of_mem_of_not_mem hc hrun)
  have hstop : ∀ c, (close :: rest).head? = some c → decide (c ≠ close) = false := by simp
  have hdrop : (run ++ close :: rest).dropWhile (fun c => decide (c ≠ close)) = close :: rest :=
    dropWhile_eq_iff.mpr ⟨run, rfl, hall, hstop⟩
  rw [until?, takeWhile_eq_of_run hall hstop, hdrop]
  cases run <;> rfl

/-- Without a closing delimiter nothing is named. -/
theorem until?_of_open {close : Char} {s : List Char} (hs : close ∉ s) : until? close s = none := by
  have hdrop : s.dropWhile (fun c => decide (c ≠ close)) = [] :=
    List.dropWhile_eq_nil_iff.mpr fun c hc => decide_eq_true (ne_of_mem_of_not_mem hc hs)
  rw [until?, hdrop]
  cases s.takeWhile (fun c => decide (c ≠ close)) <;> rfl

/-- A target is what stands before the first delimiter that closes it, and is not empty. -/
theorem until?_eq_some_iff {close : Char} {s : List Char} {target : String} :
    until? close s = some target ↔
      target ≠ "" ∧ close ∉ target.toList ∧ ∃ rest, s = target.toList ++ close :: rest := by
  constructor
  · intro h
    by_cases hclosed : close ∈ s
    · obtain ⟨run, rest, rfl, hrun⟩ := List.eq_append_cons_of_mem hclosed
      rw [until?_of_closed hrun] at h
      split at h
      · cases h
      · next hne =>
        cases h
        rw [String.toList_ofList]
        refine ⟨fun hempty => hne ?_, hrun, rest, rfl⟩
        simpa using congrArg String.toList hempty
    · rw [until?_of_open hclosed] at h
      cases h
  · rintro ⟨hne, hopen, rest, rfl⟩
    rw [until?_of_closed hopen, if_neg, String.ofList_toList]
    simpa using hne

/-- An include is read off a text just when its target stands between the delimiters. -/
theorem ofDelimited?_eq_some_iff {text : List Char} {i : Include} :
    ofDelimited? text = some i ↔ Delimited text i := by
  constructor
  · intro h
    unfold ofDelimited? at h
    split at h
    · obtain ⟨target, htarget, rfl⟩ := Option.map_eq_some_iff.mp h
      obtain ⟨hne, hopen, rest, rfl⟩ := until?_eq_some_iff.mp htarget
      exact .beside hne hopen rest
    · obtain ⟨target, htarget, rfl⟩ := Option.map_eq_some_iff.mp h
      obtain ⟨hne, hopen, rest, rfl⟩ := until?_eq_some_iff.mp htarget
      exact .system hne hopen rest
    · cases h
  · rintro (⟨hne, hopen, rest⟩ | ⟨hne, hopen, rest⟩)
    · rw [ofDelimited?, until?_eq_some_iff.mpr ⟨hne, hopen, rest, rfl⟩]
      rfl
    · rw [ofDelimited?, until?_eq_some_iff.mpr ⟨hne, hopen, rest, rfl⟩]
      rfl

/-- An opening delimiter is no gap. -/
theorem Delimited.head {text : List Char} {i : Include} (h : Delimited text i) :
    ∀ c, text.head? = some c → isGap c = false := by
  intro c hc
  cases h <;> cases hc <;> rfl

/-- A line is read as naming a header just when it names that header. -/
theorem ofLine?_eq_some_iff {line : List Char} {i : Include} :
    ofLine? line = some i ↔ Names line i := by
  simp only [ofLine?, Option.bind_eq_bind, Option.bind_eq_some_iff, after?_eq_some_iff,
    ofDelimited?_eq_some_iff]
  constructor
  · rintro ⟨rest, hhash, rest', hword, htext⟩
    obtain ⟨gap, rfl, hgap, -⟩ := dropWhile_eq_iff.mp hhash
    obtain ⟨gap', rfl, hgap', -⟩ := dropWhile_eq_iff.mp hword
    obtain ⟨gap'', hrest', hgap'', -⟩ := dropWhile_eq_iff.mp (rfl : rest'.dropWhile isGap = _)
    rw [hrest']
    exact .mk hgap hgap' hgap'' htext
  · intro h
    cases h with
    | @mk gap gap' gap'' text _ hgap hgap' hgap'' htext =>
    have hhash : ∀ c, ('#' :: (gap' ++ ("include".toList ++ (gap'' ++ text)))).head? = some c →
        isGap c = false := by
      intro c hc
      cases hc
      rfl
    have hword : ∀ c, ("include".toList ++ (gap'' ++ text)).head? = some c → isGap c = false := by
      intro c hc
      cases hc
      rfl
    refine ⟨_, dropWhile_eq_iff.mpr ⟨gap, rfl, hgap, hhash⟩, gap'' ++ text, ?_, ?_⟩
    · exact dropWhile_eq_iff.mpr ⟨gap', rfl, hgap', hword⟩
    · rw [dropWhile_eq_iff.mpr ⟨gap'', rfl, hgap'', htext.head⟩]
      exact htext

/-- A line is read as naming the header that it names, and as naming none where it names none; it
names one at most. A header that has been written between its delimiters is read again, whatever
gaps stand in front and whatever stands behind. -/
theorem ofLine?_grammar :
    (∀ line i, ofLine? line = some i ↔ Names line i) ∧
    (∀ line, ofLine? line = none ↔ ∀ i, ¬ Names line i) ∧
    (∀ line i i', Names line i → Names line i' → i = i') ∧
    ∀ (target : String) (gap gap' gap'' rest : List Char), target ≠ "" → gap.all isGap = true →
      gap'.all isGap = true → gap''.all isGap = true →
      ('"' ∉ target.toList → ofLine? (gap ++ '#' :: (gap' ++ ("include".toList ++ (gap'' ++
        '"' :: (target.toList ++ '"' :: rest))))) = some (.beside target)) ∧
      ('>' ∉ target.toList → ofLine? (gap ++ '#' :: (gap' ++ ("include".toList ++ (gap'' ++
        '<' :: (target.toList ++ '>' :: rest))))) = some (.system target)) := by
  refine ⟨fun _ _ => ofLine?_eq_some_iff, fun line => ?_, fun line i i' hi hi' => ?_, ?_⟩
  · simp only [Option.eq_none_iff_forall_ne_some, ne_eq, ofLine?_eq_some_iff]
  · rw [← ofLine?_eq_some_iff] at hi hi'
    exact Option.some.inj (hi.symm.trans hi')
  · intro target gap gap' gap'' rest hne hgap hgap' hgap''
    constructor
    · intro hopen
      exact ofLine?_eq_some_iff.mpr (.mk hgap hgap' hgap'' (.beside hne hopen rest))
    · intro hopen
      exact ofLine?_eq_some_iff.mpr (.mk hgap hgap' hgap'' (.system hne hopen rest))

/-- A header whose name has the other kind's delimiters in it, and one whose line goes on with
another include; no header behind the slashes of a comment. -/
theorem ofLine?_grammar_medley :
    ofLine? "\t# include\"a<b>.h\" <c>".toList = some (.beside "a<b>.h") ∧
      ofLine? "#\tinclude  <\"é\"\n>\"#include <d>".toList = some (.system "\"é\"\n") ∧
      ofLine? "//#include <e>".toList = none ∧
      ¬ Names "//#include <e>".toList (.system "e") := by
  obtain ⟨hreads, hnone, -, hwritten⟩ := ofLine?_grammar
  have hcomment : ofLine? "//#include <e>".toList = none := by decide
  refine ⟨?_, ?_, hcomment, (hnone _).mp hcomment _⟩
  · refine (hwritten "a<b>.h" "\t".toList " ".toList [] " <c>".toList ?_ ?_ ?_ ?_).1 ?_
    all_goals decide
  · refine (hwritten "\"é\"\n" [] "\t".toList "  ".toList "\"#include <d>".toList ?_ ?_ ?_ ?_).2 ?_
    all_goals decide

end CxxScript.Source.Include

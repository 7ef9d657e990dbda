import CxxScript.Build.Discovery
import CxxScript.Proofs.Host.Growth
import Mathlib.Algebra.Order.BigOperators.Group.Finset
import Mathlib.Data.Fintype.BigOperators

/-!
# How many files and paths there are

Two finite numbers bound a collection of files: the number of locations at which there is something
to read, and the number of texts that a path which can be followed may have. Together with the three
keys of a path the second bounds the number of keys under which files can be read.
-/

set_option autoImplicit false

namespace CxxScript.Files

/-! ## Readable locations -/

/-- The locations at which there is a file that can be read. -/
def readable (fs : Files) : Finset Location :=
  (fs.entries.map (·.1)).toFinset.filter fun at_ => (fs.get? at_).any Entry.isReadable

/-- A location is readable when the entry there is. -/
theorem mem_readable {fs : Files} {at_ : Location} :
    at_ ∈ fs.readable ↔ ∃ e, fs.get? at_ = some e ∧ e.isReadable = true := by
  rw [readable, Finset.mem_filter, List.mem_toFinset]
  constructor
  · rintro ⟨-, hany⟩
    cases hg : fs.get? at_ with
    | none => rw [hg] at hany; cases hany
    | some e => rw [hg] at hany; exact ⟨e, rfl, hany⟩
  · rintro ⟨e, hg, he⟩
    refine ⟨?_, by rw [hg]; exact he⟩
    rcases mem_entries_of_get? hg with rfl | hmem
    · rw [get?_nil] at hg
      cases hg
      cases he
    · exact List.mem_map_of_mem hmem

/-- What can be read can still be read when the files have grown. -/
theorem readable_subset_of_grows {fs fs' : Files} (h : Grows fs fs') :
    fs.readable ⊆ fs'.readable := by
  intro at_ hat
  obtain ⟨e, hg, he⟩ := mem_readable.mp hat
  obtain ⟨e', hg', hb⟩ := h.kept hg
  refine mem_readable.mpr ⟨e', hg', ?_⟩
  rcases hb with rfl | ⟨-, hf⟩
  · exact he
  · cases e' <;> first | rfl | cases hf

/-! ## Texts of paths -/

/-- The first bytes of a path's text, up to a number of them. -/
def spelling (n : Nat) (p : Path) : Fin n → Option (Fin 256) := fun i =>
  p.text.toByteArray.data[i.val]?.map UInt8.toFin

/-- A path that is not longer than that is known from these bytes. -/
theorem spelling_injOn (n : Nat) : Set.InjOn (spelling n) { p | p.text.utf8ByteSize ≤ n } := by
  intro p hp q hq h
  have hbytes : p.text.toByteArray.data = q.text.toByteArray.data := by
    refine Array.ext_getElem? fun i => ?_
    by_cases hi : i < n
    · have hat := congrFun h ⟨i, hi⟩
      exact Option.map_injective (fun a b hab => UInt8.toFin_inj.mp hab) hat
    · have hpsize : p.text.toByteArray.data.size ≤ n := hp
      have hqsize : q.text.toByteArray.data.size ≤ n := hq
      rw [Array.getElem?_eq_none (by omega), Array.getElem?_eq_none (by omega)]
  have htext : p.text.toByteArray = q.text.toByteArray := ByteArray.ext hbytes
  cases p
  cases q
  exact congrArg Path.mk (String.toByteArray_inj.mp htext)

/-- There are no more paths of a bounded length than there are ways to fill their bytes. -/
theorem card_paths_le (n : Nat) (paths : Finset Path)
    (h : ∀ p ∈ paths, p.text.utf8ByteSize ≤ n) : paths.card ≤ Nat.pow 257 n := by
  have hcard : Fintype.card (Fin n → Option (Fin 256)) = Nat.pow 257 n := by
    rw [Fintype.card_fun, Fintype.card_option, Fintype.card_fin, Fintype.card_fin]
    rfl
  rw [← hcard, ← Finset.card_univ]
  refine Finset.card_le_card_of_injOn (spelling n) (fun _ _ => Finset.mem_univ _) ?_
  exact (spelling_injOn n).mono fun p hp => h p hp

/-- Distinct keys of paths that are not too long are at most three for each spelling. -/
theorem length_keys_le {fs : Files} {wd : WorkingDir} {keys : List Path} (hnodup : keys.Nodup)
    (h : ∀ k ∈ keys, ∃ p : Path, p.text.utf8ByteSize ≤ maxPathBytes ∧ k ∈ fs.keys wd p) :
    keys.length ≤ 3 * Discovery.spellings := by
  choose! path hpath using h
  let paths : Finset Path := (keys.map path).toFinset
  have hpaths : paths.card ≤ Discovery.spellings := by
    unfold Discovery.spellings
    refine card_paths_le maxPathBytes paths fun p hp => ?_
    obtain ⟨k, hk, rfl⟩ := List.mem_map.mp (List.mem_toFinset.mp hp)
    exact (hpath k hk).1
  have hsubset : keys.toFinset ⊆ paths.biUnion fun p => (fs.keys wd p).toFinset := by
    intro k hk
    rw [List.mem_toFinset] at hk
    rw [Finset.mem_biUnion]
    refine ⟨path k, List.mem_toFinset.mpr (List.mem_map_of_mem hk), ?_⟩
    exact List.mem_toFinset.mpr (hpath k hk).2
  have hthree : ∀ p ∈ paths, ((fs.keys wd p).toFinset).card ≤ 3 := fun p _ =>
    List.toFinset_card_le _
  calc keys.length = keys.toFinset.card := (List.toFinset_card_of_nodup hnodup).symm
    _ ≤ (paths.biUnion fun p => (fs.keys wd p).toFinset).card := Finset.card_le_card hsubset
    _ ≤ paths.card * 3 := Finset.card_biUnion_le_card_mul paths _ 3 hthree
    _ ≤ 3 * Discovery.spellings := by omega

end CxxScript.Files

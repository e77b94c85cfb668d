import Mathlib.Data.List.Pairwise
import Mathlib.Data.List.Perm.Subperm
import Snapshot.Pattern.Search
import Snapshot.Proofs.Pattern.Found

/-!
# What a search covers

A search comes to each place of a text once. It passes over a place only inside a match that it has
found, where no match is found, or where the one that is found is empty and touches the match
before. That is an invariant of how far the search is, and of where it may go on.
-/

namespace Snapshot.Pattern

def placeAt (text : List Char) (i : Nat) : Spot := ⟨(text.take i).getLast?, text.drop i, i⟩

theorem placeAt_zero (text : List Char) : placeAt text 0 = ⟨none, text, 0⟩ := rfl

theorem placeAt_succ {text : List Char} {i : Nat} {c : Char} {rest : List Char}
    (h : text.drop i = c :: rest) : placeAt text (i + 1) = ⟨some c, rest, i + 1⟩ := by
  have lt : i < text.length := by
    by_contra ge
    rw [List.drop_eq_nil_of_le (Nat.le_of_not_lt ge)] at h
    cases h
  rw [List.drop_eq_getElem_cons lt] at h
  obtain ⟨rfl, rfl⟩ := List.cons.inj h
  rw [placeAt, List.take_succ_eq_append_getElem lt, List.getLast?_concat]

theorem skip_placeAt {text : List Char} {i n : Nat} (h : i + n ≤ text.length) :
    (placeAt text i).skip n = placeAt text (i + n) := by
  induction n generalizing i with
  | zero => rfl
  | succ n ih =>
    have lt : i < text.length := by omega
    have next : (placeAt text i).next = placeAt text (i + 1) := by
      rw [placeAt_succ (List.drop_eq_getElem_cons lt), placeAt, List.drop_eq_getElem_cons lt]
      rfl
    rw [Spot.skip, next, ih (by omega), Nat.add_assoc, Nat.add_comm 1]

structure Match.Stands (p : Pattern) (text : List Char) (m : Match) : Prop where
  le : m.start ≤ m.stop
  stop_le : m.stop ≤ text.length
  matched : p.Matches (placeAt text m.start) (placeAt text m.stop)
  within : m.groups.Within m.start m.stop

theorem stands_of_matchAt {p : Pattern} {text : List Char} {i : Nat} (le : i ≤ text.length)
    {m : Match} (h : p.matchAt (placeAt text i) = some m) : m.start = i ∧ m.Stands p text := by
  have fits := fits_of_matchAt h
  obtain ⟨n, le_rest, stop, matched⟩ := fits.exists_stop
  have start : m.start = i := fits.start
  have stop : m.stop = i + n := stop
  have room : n ≤ (text.drop i).length := le_rest
  rw [List.length_drop] at room
  rw [skip_placeAt (by omega)] at matched
  refine ⟨start, by omega, by omega, ?_, fits.within⟩
  rwa [start, stop]

def found? (p : Pattern) (x : Spot) (resume : Nat) (last : Option Nat) : Option Match :=
  (if x.index < resume then none else p.matchAt x).filter fun m =>
    !(m.stop == x.index && last == some x.index)

section Found
variable {p : Pattern} {x : Spot} {resume : Nat} {last : Option Nat} {m : Match}

theorem of_found? (h : p.found? x resume last = some m) :
    resume ≤ x.index ∧ p.matchAt x = some m := by
  obtain ⟨found, -⟩ := Option.filter_eq_some_iff.1 h
  split at found
  · cases found
  · exact ⟨by omega, found⟩

theorem touches_of_found?_eq_none (h : p.found? x resume last = none) (le : resume ≤ x.index)
    (hm : p.matchAt x = some m) : m.stop = x.index ∧ last = some x.index := by
  rw [found?, if_neg (by omega), hm] at h
  simpa [Option.filter_some] using h

end Found

/-- The matches that are found from the place of number `index` on: they stand there one behind
another, and what they leave out of what could be found is empty and touches the end of one. -/
structure Covers (p : Pattern) (text : List Char) (index resume : Nat) (last : Option Nat)
    (ms : List Match) : Prop where
  located : ∀ m ∈ ms, index ≤ m.start ∧ resume ≤ m.start ∧ m.Stands p text
  apart : ms.Pairwise fun m m' => m.start < m'.start ∧ m.stop ≤ m'.start
  complete : ∀ i, index ≤ i → resume ≤ i → i ≤ text.length → ∀ m,
    p.matchAt (placeAt text i) = some m →
      (∃ m' ∈ ms, m'.start = i ∨ m'.start < i ∧ i < m'.stop) ∨
      m.stop = i ∧ (last = some i ∨ ∃ m' ∈ ms, m'.stop = i)

section Covering
variable {p : Pattern} {text : List Char} {index resume : Nat} {last : Option Nat}

theorem covers_end (h : text.length < index) : Covers p text index resume last [] where
  located _ hm := absurd hm List.not_mem_nil
  apart := .nil
  complete i le _ le' := by omega

theorem Covers.of_none {ms : List Match} (rest : Covers p text (index + 1) resume last ms)
    (none : p.found? (placeAt text index) resume last = none) :
    Covers p text index resume last ms where
  located m hm := (rest.located m hm).imp_left (by omega)
  apart := rest.apart
  complete i le le_resume le_length m hm := by
    rcases Nat.eq_or_lt_of_le le with rfl | lt
    · obtain ⟨empty, touches⟩ := touches_of_found?_eq_none none le_resume hm
      exact .inr ⟨empty, .inl touches⟩
    · exact rest.complete i lt le_resume le_length m hm

theorem Covers.of_some {ms : List Match} {m : Match} (le : index ≤ text.length)
    (rest : Covers p text (index + 1) m.stop (some m.stop) ms)
    (found : p.found? (placeAt text index) resume last = some m) :
    Covers p text index resume last (m :: ms) := by
  obtain ⟨le_index, hm⟩ := of_found? found
  have le_index : resume ≤ index := le_index
  obtain ⟨start, stands⟩ := stands_of_matchAt le hm
  refine ⟨List.forall_mem_cons.2 ⟨⟨by omega, by omega, stands⟩, fun m' hm' => ?_⟩,
    List.pairwise_cons.2 ⟨fun m' hm' => ?_, rest.apart⟩, fun i le_i _ le_length m' hm' => ?_⟩
  · obtain ⟨behind, -, stands'⟩ := rest.located m' hm'
    exact ⟨by omega, by omega, stands'⟩
  · obtain ⟨behind, after, -⟩ := rest.located m' hm'
    exact ⟨by omega, after⟩
  · by_cases first : i = index
    · exact .inl ⟨m, List.mem_cons_self, .inl (start.trans first.symm)⟩
    by_cases inside : i < m.stop
    · exact .inl ⟨m, List.mem_cons_self, .inr ⟨by omega, inside⟩⟩
    rcases rest.complete i (by omega) (by omega) le_length m' hm' with
      ⟨m'', hm'', at_it⟩ | ⟨empty, same | ⟨m'', hm'', stop⟩⟩
    · exact .inl ⟨m'', List.mem_cons_of_mem m hm'', at_it⟩
    · exact .inr ⟨empty, .inr ⟨m, List.mem_cons_self, Option.some.inj same⟩⟩
    · exact .inr ⟨empty, .inr ⟨m'', List.mem_cons_of_mem m hm'', stop⟩⟩

theorem covers_search {after : List Char} {before : Option Char}
    (place : placeAt text index = ⟨before, after, index⟩)
    (length : index + after.length = text.length) :
    Covers p text index resume last (p.search after before index resume last) := by
  induction after generalizing before index resume last with
  | nil =>
    have past : text.length < index + 1 := by
      rw [List.length_nil] at length
      omega
    rw [search]
    split <;> rename_i found
    · exact (covers_end past).of_some (by omega) (place ▸ found)
    · exact (covers_end past).of_none (place ▸ found)
  | cons c rest ih =>
    have next := placeAt_succ (congrArg Spot.after place)
    rw [List.length_cons] at length
    rw [search]
    split <;> rename_i found
    · exact (ih next (by omega)).of_some (by omega) (place ▸ found)
    · exact (ih next (by omega)).of_none (place ▸ found)

end Covering

theorem covers_matchesIn (p : Pattern) (text : List Char) :
    Covers p text 0 0 none (p.matchesIn text) :=
  covers_search (placeAt_zero text) (Nat.zero_add _)

section Whole
variable {p : Pattern} {text : List Char}

theorem stands_of_mem {m : Match} (hm : m ∈ p.matchesIn text) : m.Stands p text :=
  ((covers_matchesIn p text).located m hm).2.2

theorem disjoint_of_mem {m m' : Match} (hm : m ∈ p.matchesIn text) (hm' : m' ∈ p.matchesIn text) :
    m = m' ∨ m.stop ≤ m'.start ∨ m'.stop ≤ m.start := by
  have apart := (covers_matchesIn p text).apart
  exact List.Pairwise.forall_of_forall_of_flip
    (R := fun m m' : Match => m = m' ∨ m.stop ≤ m'.start ∨ m'.stop ≤ m.start)
    (fun _ _ => .inl rfl) (apart.imp fun h => .inr (.inl h.2)) (apart.imp fun h => .inr (.inr h.2))
    hm hm'

theorem not_matches_of_apart {i : Nat} (le : i ≤ text.length)
    (apart : ∀ m ∈ p.matchesIn text, i < m.start ∨ m.stop < i) (y : Spot) :
    ¬p.Matches (placeAt text i) y := by
  intro matched
  obtain ⟨m, hm⟩ := exists_matchAt matched
  rcases (covers_matchesIn p text).complete i (Nat.zero_le i) (Nat.zero_le i) le m hm with
    ⟨m', hm', at_it⟩ | ⟨-, touches | ⟨m', hm', stop⟩⟩
  · have ordered := (stands_of_mem hm').le
    have away := apart m' hm'
    omega
  · cases touches
  · have ordered := (stands_of_mem hm').le
    have away := apart m' hm'
    omega

/-- The end of a match at which none begins begins only matches that could be empty. -/
theorem not_matches_of_end {m : Match} (hm : m ∈ p.matchesIn text)
    (last : ∀ m' ∈ p.matchesIn text, m'.start ≠ m.stop)
    (taking : ¬p.Matches (placeAt text m.stop) (placeAt text m.stop)) (y : Spot) :
    ¬p.Matches (placeAt text m.stop) y := by
  intro matched
  have le := (stands_of_mem hm).stop_le
  obtain ⟨found, hfound⟩ := exists_matchAt matched
  obtain ⟨start, stands⟩ := stands_of_matchAt le hfound
  rcases (covers_matchesIn p text).complete _ (Nat.zero_le _) (Nat.zero_le _) le found hfound with
    ⟨m', hm', same | inside⟩ | ⟨empty, -⟩
  · exact last m' hm' same
  · have ordered := (stands_of_mem hm).le
    rcases disjoint_of_mem hm hm' with rfl | before | behind
    · omega
    · have other := last m' hm'
      omega
    · omega
  · have none := stands.matched
    rw [start, empty] at none
    exact taking none

theorem length_matchesIn_le (p : Pattern) (text : List Char) :
    (p.matchesIn text).length ≤ text.length + 1 := by
  let starts := (p.matchesIn text).map fun m => m.start
  have increasing : starts.Pairwise (· < ·) :=
    List.pairwise_map.2 ((covers_matchesIn p text).apart.imp And.left)
  have bounded : starts ⊆ List.range (text.length + 1) := by
    intro start hstart
    obtain ⟨m, hm, rfl⟩ := List.mem_map.1 hstart
    have stands := stands_of_mem hm
    exact List.mem_range.2 (Nat.lt_succ_of_le (stands.le.trans stands.stop_le))
  have count := (List.subperm_of_subset (increasing.imp Nat.ne_of_lt) bounded).length_le
  rwa [List.length_map, List.length_range] at count

end Whole

end Snapshot.Pattern

import Snapshot.Pattern.Search
import Snapshot.Proofs.Pattern.Runs

/-!
# Searching with a pattern that takes something

A match of such a pattern ends behind its beginning. So a search is the same wherever the last match
ended, and the matches from a place on are told by what the pattern does there: where it matches,
the search goes on behind the match, and elsewhere at the next character.
-/

namespace Snapshot.Pattern

theorem matchAt_over {P : Char → Prop} {p : Pattern} (stays : p.Over P) (steady : p.steady = true)
    (taking : p.nullable = false) {x : Spot} {m : Match} (h : p.matchAt x = some m) :
    ∃ n, 0 < n ∧ n ≤ x.after.length ∧ m.start = x.index ∧ m.stop = x.index + n ∧
      ∀ c ∈ x.after.take n, P c := by
  rw [matchAt_eq_pursue steady] at h
  obtain ⟨y, hy, rfl⟩ := Option.map_eq_some_iff.1 h
  obtain ⟨z, hz, same⟩ := List.exists_of_findSome?_eq_some hy
  obtain rfl := Option.some.inj same
  obtain ⟨n, hn, skip, taken⟩ := leads_of_mem_ways stays hz
  have shorter := length_after_lt taking hz
  rw [skip, Spot.after_skip, List.length_drop] at shorter
  have stop : (Match.ofStand x.index z).stop = x.index + n := by
    rw [Match.ofStand, skip, Spot.index_skip hn]
  have hn : n ≤ x.after.length := hn
  have shorter : x.after.length - n < x.after.length := shorter
  exact ⟨n, by omega, hn, rfl, stop, taken⟩

theorem matchAt_eq_some {p : Pattern} (steady : p.steady = true) (taking : p.nullable = false)
    {x : Spot} {m : Match} (h : p.matchAt x = some m) :
    ∃ n, 0 < n ∧ n ≤ x.after.length ∧ m.start = x.index ∧ m.stop = x.index + n := by
  obtain ⟨n, pos, le, start, stop, -⟩ := matchAt_over p.over_true steady taking h
  exact ⟨n, pos, le, start, stop⟩

def matchesFrom (p : Pattern) (x : Spot) : List Match :=
  p.search x.after x.before x.index x.index none

theorem matchesIn_eq (p : Pattern) (text : List Char) :
    p.matchesIn text = p.matchesFrom ⟨none, text, 0⟩ := rfl

def placeOf (text s : List Char) : Spot := (Spot.mk none text 0).upto s

theorem index_placeOf (text s : List Char) : (placeOf text s).index = text.length - s.length := by
  rw [placeOf, Spot.index_upto, Nat.zero_add]

theorem after_placeOf {text s : List Char} (h : s <:+ text) : (placeOf text s).after = s :=
  Spot.after_upto h

theorem upto_placeOf {text s rest : List Char} (h : s <:+ text) (hr : rest <:+ s) :
    (placeOf text s).upto rest = placeOf text rest := Spot.upto_upto h hr

theorem next_placeOf {text s : List Char} {c : Char} (h : c :: s <:+ text) :
    (placeOf text (c :: s)).next = placeOf text s := by
  rw [Spot.next_eq_upto (after_placeOf h), upto_placeOf h (List.suffix_cons c s)]

theorem skip_placeOf {text s rest : List Char} (h : s <:+ text) (hr : rest <:+ s) :
    (placeOf text s).skip ((placeOf text rest).index - (placeOf text s).index) =
      placeOf text rest := by
  have le := h.length_le
  have shorter := hr.length_le
  have skip := upto_placeOf h hr
  rw [Spot.upto, after_placeOf h] at skip
  rw [index_placeOf, index_placeOf, ← skip]
  congr 1
  omega

theorem slice_prefix {text s w : List Char} (h : s <:+ text) (hw : w <+: s) :
    (Span.mk (text.length - s.length) (text.length - s.length + w.length)).slice text = w := by
  rw [Span.slice, ← List.suffix_iff_eq_drop.1 h, Nat.add_sub_cancel_left]
  exact (List.prefix_iff_eq_take.1 hw).symm

theorem slice_between {text w rest : List Char} (h : w ++ rest <:+ text) :
    (Span.mk (placeOf text (w ++ rest)).index (placeOf text rest).index).slice text = w := by
  have le := h.length_le
  rw [List.length_append] at le
  have behind : text.length - rest.length = text.length - (w ++ rest).length + w.length := by
    rw [List.length_append]
    omega
  rw [index_placeOf, index_placeOf, behind, slice_prefix h (List.prefix_append w rest)]

section Taking
variable {p : Pattern} (steady : p.steady = true) (taking : p.nullable = false)
include steady taking

theorem filter_matchAt (x : Spot) (last : Option Nat) :
    ((p.matchAt x).filter fun m => !(m.stop == x.index && last == some x.index)) = p.matchAt x := by
  cases hm : p.matchAt x with
  | none => rfl
  | some m =>
    obtain ⟨n, pos, -, -, stop⟩ := matchAt_eq_some steady taking hm
    have behind : (m.stop == x.index) = false := by
      rw [stop]
      exact beq_false_of_ne (by omega)
    simp [Option.filter_some, behind]

theorem search_cons {before : Option Char} {c : Char} {rest : List Char} {index resume : Nat}
    (h : resume ≤ index) (last : Option Nat) :
    p.search (c :: rest) before index resume last =
      match p.matchAt ⟨before, c :: rest, index⟩ with
      | some m => m :: p.search rest (some c) (index + 1) m.stop (some m.stop)
      | none => p.search rest (some c) (index + 1) resume last := by
  have filtered := filter_matchAt steady taking ⟨before, c :: rest, index⟩ last
  rw [search]
  cases found : p.matchAt ⟨before, c :: rest, index⟩ <;> rw [found] at filtered <;>
    simp only [if_neg (Nat.not_lt.2 h), filtered]

theorem search_nil {before : Option Char} {index resume : Nat} (last : Option Nat) :
    p.search [] before index resume last = [] := by
  have nothing : p.matchAt ⟨before, [], index⟩ = none := by
    cases hm : p.matchAt ⟨before, [], index⟩ with
    | none => rfl
    | some m =>
      obtain ⟨n, pos, le, -⟩ := matchAt_eq_some steady taking hm
      exact absurd (pos.trans_le le) (Nat.lt_irrefl 0)
  rw [search, nothing]
  simp

theorem search_of_le {after : List Char} {before : Option Char} {index resume resume' : Nat}
    (h : resume ≤ index) (h' : resume' ≤ index) (last last' : Option Nat) :
    p.search after before index resume last = p.search after before index resume' last' := by
  induction after generalizing before index with
  | nil => rw [search_nil steady taking, search_nil steady taking]
  | cons c rest ih =>
    rw [search_cons steady taking h, search_cons steady taking h']
    cases p.matchAt ⟨before, c :: rest, index⟩ with
    | none => exact ih (Nat.le_succ_of_le h) (Nat.le_succ_of_le h')
    | some m => rfl

theorem search_skip {x : Spot} {n : Nat} (h : n ≤ x.after.length) (last : Option Nat) :
    p.search x.after x.before x.index (x.index + n) last = p.matchesFrom (x.skip n) := by
  induction n generalizing x with
  | zero => exact search_of_le steady taking le_rfl le_rfl _ _
  | succ n ih =>
    obtain ⟨before, _ | ⟨c, rest⟩, index⟩ := x
    · simp at h
    · have early : index < index + (n + 1) := by omega
      rw [search]
      simp only [if_pos early, Option.filter_none]
      rw [← Nat.add_assoc, Nat.add_right_comm]
      exact ih (x := ⟨some c, rest, index + 1⟩) (Nat.le_of_succ_le_succ h)

theorem matchesFrom_end {x : Spot} (h : x.after = []) : p.matchesFrom x = [] := by
  rw [matchesFrom, h]
  exact search_nil steady taking _

theorem matchesFrom_of_none {x : Spot} (h : p.matchAt x = none) :
    p.matchesFrom x = p.matchesFrom x.next := by
  obtain ⟨before, _ | ⟨c, rest⟩, index⟩ := x
  · rfl
  · rw [matchesFrom]
    refine (search_cons steady taking le_rfl _).trans ?_
    rw [h]
    exact search_of_le steady taking (Nat.le_succ index) le_rfl _ _

theorem matchesFrom_of_some {x : Spot} {m : Match} (h : p.matchAt x = some m) :
    p.matchesFrom x = m :: p.matchesFrom (x.skip (m.stop - x.index)) := by
  obtain ⟨n, pos, le, -, stop⟩ := matchAt_eq_some steady taking h
  obtain ⟨before, _ | ⟨c, rest⟩, index⟩ := x
  · exact absurd (pos.trans_le le) (Nat.lt_irrefl 0)
  · obtain ⟨n, rfl⟩ := Nat.exists_eq_succ_of_ne_zero pos.ne'
    rw [matchesFrom]
    refine (search_cons steady taking le_rfl _).trans ?_
    simp only [h]
    congr 1
    have stop : m.stop = index + 1 + n := by
      rw [stop]
      change index + (n + 1) = _
      omega
    rw [stop, show index + 1 + n - index = n + 1 by omega]
    exact search_skip steady taking (x := ⟨some c, rest, index + 1⟩) (Nat.le_of_succ_le_succ le) _

end Taking

end Snapshot.Pattern

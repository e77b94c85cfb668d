import Snapshot.Proofs.Pattern.Search

/-!
# Replacing what a pattern matches

The text in which all matches are replaced is told by what the pattern does at one place after
another: a match gives way to the new text, and any other character stays.
-/

namespace Snapshot.Pattern

def replaced (p : Pattern) (new : List Char) (x : Spot) : List Char :=
  replaceFrom new (p.matchesFrom x) x.index x.after

theorem replaceAll_eq (p : Pattern) (new text : List Char) :
    p.replaceAll new text = p.replaced new ⟨none, text, 0⟩ := rfl

section Taking
variable {p : Pattern} (steady : p.steady = true) (taking : p.nullable = false)
include steady taking

theorem index_le_of_mem {x : Spot} {m : Match} (h : m ∈ p.matchesFrom x) :
    x.index ≤ m.start ∧ m.start ≤ m.stop := by
  induction hn : x.after.length using Nat.strong_induction_on generalizing x with
  | _ n ih =>
  subst hn
  cases hx : x.after with
  | nil => simp [matchesFrom_end steady taking hx] at h
  | cons c rest =>
    cases hm : p.matchAt x with
    | none =>
      have next : x.next.index = x.index + 1 := by
        rw [Spot.next_eq_skip, Spot.index_skip]
        simp [hx]
      rw [matchesFrom_of_none steady taking hm] at h
      have further := ih x.next.after.length (by simp [hx]) h rfl
      omega
    | some m' =>
      obtain ⟨n, pos, le, start, stop⟩ := matchAt_eq_some steady taking hm
      rw [matchesFrom_of_some steady taking hm, stop, Nat.add_sub_cancel_left] at h
      rcases List.mem_cons.1 h with rfl | h
      · omega
      · have shorter : (x.skip n).after.length < x.after.length := by
          rw [Spot.after_skip, List.length_drop]
          omega
        have further := ih _ shorter h rfl
        rw [Spot.index_skip le] at further
        omega

theorem replaced_end {new : List Char} {x : Spot} (h : x.after = []) : p.replaced new x = [] := by
  rw [replaced, matchesFrom_end steady taking h, h]
  rfl

theorem replaced_of_none {new : List Char} {x : Spot} {c : Char} {rest : List Char}
    (hx : x.after = c :: rest) (h : p.matchAt x = none) :
    p.replaced new x = c :: p.replaced new x.next := by
  have next : x.next.index = x.index + 1 := by
    rw [Spot.next_eq_skip, Spot.index_skip]
    simp [hx]
  have behind := fun m => index_le_of_mem steady taking (x := x.next) (m := m)
  rw [replaced, replaced, matchesFrom_of_none steady taking h, hx, Spot.after_next, hx,
    List.tail_cons, next]
  cases hms : p.matchesFrom x.next with
  | nil => rfl
  | cons m ms =>
    obtain ⟨le, le'⟩ := behind m (hms ▸ List.mem_cons_self)
    rw [next] at le
    rw [replaceFrom, replaceFrom, show m.start - x.index = m.start - (x.index + 1) + 1 by omega,
      show m.stop - x.index = m.stop - (x.index + 1) + 1 by omega]
    rfl

theorem replaced_of_some {new : List Char} {x : Spot} {m : Match} (h : p.matchAt x = some m) :
    p.replaced new x = new ++ p.replaced new (x.skip (m.stop - x.index)) := by
  obtain ⟨n, pos, le, start, stop⟩ := matchAt_eq_some steady taking h
  rw [replaced, replaced, matchesFrom_of_some steady taking h, replaceFrom, start, stop,
    Nat.add_sub_cancel_left, Spot.index_skip le, Spot.after_skip]
  simp

theorem replaced_of_upto {new : List Char} {x : Spot} {rest : List Char} {g : Groups}
    (h : p.matchAt x = some (Match.ofStand x.index (x.upto rest, g))) :
    p.replaced new x = new ++ p.replaced new (x.upto rest) := by
  have skip : x.skip ((x.upto rest).index - x.index) = x.upto rest := by
    rw [Spot.index_upto, Nat.add_sub_cancel_left]
    rfl
  rw [replaced_of_some steady taking h]
  exact congrArg (fun y => new ++ p.replaced new y) skip

theorem count_replaced {d : Char} (stays : p.Over (· ≠ d)) {new : List Char} (hnew : d ∉ new)
    (x : Spot) : (p.replaced new x).count d = x.after.count d := by
  induction hn : x.after.length using Nat.strong_induction_on generalizing x with
  | _ n ih =>
  subst hn
  cases hx : x.after with
  | nil => rw [replaced_end steady taking hx]
  | cons c rest =>
    cases hm : p.matchAt x with
    | none =>
      rw [replaced_of_none steady taking hx hm, List.count_cons, ih _ (by simp [hx]) x.next rfl,
        Spot.after_next, hx, List.tail_cons, List.count_cons]
    | some m =>
      obtain ⟨n, pos, le, start, stop, taken⟩ := matchAt_over stays steady taking hm
      have shorter : (x.skip n).after.length < x.after.length := by
        rw [Spot.after_skip, List.length_drop]
        omega
      have lost : (x.after.take n).count d = 0 :=
        List.count_eq_zero.2 fun hd => taken d hd rfl
      rw [replaced_of_some steady taking hm, stop, Nat.add_sub_cancel_left, List.count_append,
        ih _ shorter (x.skip n) rfl, List.count_eq_zero.2 hnew, Spot.after_skip, ← hx]
      conv_rhs => rw [← List.take_append_drop n x.after, List.count_append, lost]

end Taking

end Snapshot.Pattern

import Snapshot.Proofs.Pattern.Race
import Snapshot.Proofs.Text.Reading

/-!
# Words and runs of characters

What comes of a word, and of a loop over one set of characters, in terms of the text alone. A greedy
run goes on from its end whenever nothing could be made of a shorter one.
-/

namespace Snapshot.Pattern

namespace Spot

def upto (s : Spot) (rest : List Char) : Spot := s.skip (s.after.length - rest.length)

theorem upto_after (s : Spot) : s.upto s.after = s := by
  rw [upto, Nat.sub_self]
  rfl

theorem after_upto {s : Spot} {rest : List Char} (h : rest <:+ s.after) :
    (s.upto rest).after = rest := by
  rw [upto, after_skip]
  exact (List.suffix_iff_eq_drop.1 h).symm

theorem index_upto (s : Spot) (rest : List Char) :
    (s.upto rest).index = s.index + (s.after.length - rest.length) := index_skip (Nat.sub_le _ _)

theorem upto_upto {s : Spot} {mid rest : List Char} (hm : mid <:+ s.after) (h : rest <:+ mid) :
    (s.upto mid).upto rest = s.upto rest := by
  have lm := hm.length_le
  have lr := h.length_le
  rw [upto, after_upto hm, upto, skip_skip, upto]
  congr 1
  omega

theorem skip_eq_upto {s : Spot} {n : Nat} (h : n ≤ s.after.length) :
    s.skip n = s.upto (s.after.drop n) := by
  rw [upto, List.length_drop, Nat.sub_sub_self h]

theorem next_eq_upto {s : Spot} {c : Char} {rest : List Char} (h : s.after = c :: rest) :
    s.next = s.upto rest := by
  have one : s.after.length - rest.length = 1 := by
    rw [h, List.length_cons]
    omega
  rw [upto, one]
  rfl

theorem before_upto {s : Spot} {pre : List Char} {c : Char} {rest : List Char}
    (h : s.after = pre ++ c :: rest) : (s.upto rest).before = some c := by
  induction pre generalizing s with
  | nil =>
    obtain ⟨before, after, index⟩ := s
    obtain rfl : after = c :: rest := h
    rw [← next_eq_upto rfl]
    rfl
  | cons d pre ih =>
    have suffix : pre ++ c :: rest <:+ s.after := h ▸ List.suffix_cons d _
    have inner : rest <:+ pre ++ c :: rest :=
      (List.suffix_cons c rest).trans (List.suffix_append pre _)
    rw [← upto_upto suffix inner]
    exact ih (after_upto suffix)

end Spot

section Words
variable {α : Type} {k : Stand → Option α}

theorem has_single (c d : Char) : (CharSet.single c).has d = true ↔ d = c := by
  simp only [CharSet.single, CharSet.has, Bool.and_eq_true, decide_eq_true_eq]
  exact ⟨fun h => Char.le_antisymm h.2 h.1, fun h => h ▸ ⟨Char.le_refl _, Char.le_refl _⟩⟩

theorem has_single_eq (c : Char) : (CharSet.single c).has = (· == c) :=
  funext fun d => Bool.eq_iff_iff.2 ((has_single c d).trans beq_iff_eq.symm)

theorem pursue_single (c : Char) (x : Stand) :
    (char (.single c)).pursue x k =
      (x.1.after.dropPrefix? [c]).bind fun rest => k (x.1.upto rest, x.2) := by
  rw [pursue_char]
  cases h : x.1.after with
  | nil => rfl
  | cons d rest =>
    by_cases hd : d = c
    · subst hd
      have first : (CharSet.single d).has d = true := (has_single d d).2 rfl
      simp [List.dropPrefix?, first, Spot.next_eq_upto h]
    · have first : (CharSet.single c).has d = false :=
        Bool.eq_false_iff.2 fun h => hd ((has_single c d).1 h)
      simp [List.dropPrefix?, first, hd]

theorem pursue_ofList (w : List Char) (x : Stand) :
    (ofList w).pursue x k =
      (x.1.after.dropPrefix? w).bind fun rest => k (x.1.upto rest, x.2) := by
  induction w generalizing x with
  | nil => simp [ofList, pursue_empty, Spot.upto_after]
  | cons c w ih =>
    cases w with
    | nil => exact pursue_single c x
    | cons d w =>
      change (seq (char (.single c)) (ofList (d :: w))).pursue x k = _
      rw [pursue_seq, pursue_single]
      cases h : x.1.after with
      | nil => rfl
      | cons e rest =>
        by_cases he : e = c
        · have behind : (x.1.upto rest).after = rest :=
            Spot.after_upto (h ▸ List.suffix_cons e rest)
          simp only [List.dropPrefix?, he, beq_self_eq_true, if_true, Option.bind_some, ih, behind]
          apply Option.bind_congr
          intro r hr
          have hr : r <:+ rest := ⟨d :: w, (Text.eq_append_of_dropPrefix? hr).symm⟩
          rw [Spot.upto_upto (h ▸ List.suffix_cons e rest) hr]
        · simp [List.dropPrefix?, he]

theorem pursue_word (w : String) (x : Stand) :
    (word w).pursue x k = (Text.after? w x.1.after).bind fun rest => k (x.1.upto rest, x.2) :=
  pursue_ofList w.toList x

theorem pursue_star_char (greedy : Bool) (s : CharSet) (x : Stand) :
    (star greedy (char s)).pursue x k =
      let stops := List.range ((x.1.after.takeWhile s.has).length + 1)
      (if greedy then stops.reverse else stops).findSome? fun n => k (x.1.skip n, x.2) := by
  obtain ⟨⟨before, after, index⟩, g⟩ := x
  induction after generalizing before index with
  | nil =>
    rw [pursue_star rfl, pursue_char]
    cases greedy <;> simp [Spot.skip]
  | cons c rest ih =>
    rw [pursue_star rfl, pursue_char]
    cases hc : s.has c with
    | false => cases greedy <;> simp [hc, Spot.skip]
    | true =>
      have stops : List.range (((c :: rest).takeWhile s.has).length + 1) =
          0 :: (List.range ((rest.takeWhile s.has).length + 1)).map Nat.succ := by
        rw [List.takeWhile_cons_of_pos hc, List.length_cons, List.range_succ_eq_map]
      have shifted : ∀ ns : List Nat,
          (ns.map Nat.succ).findSome? (fun n => k ((Spot.mk before (c :: rest) index).skip n, g)) =
            ns.findSome? fun n => k ((Spot.mk (some c) rest (index + 1)).skip n, g) :=
        fun ns => List.findSome?_map
      have further := ih (some c) (index + 1)
      cases greedy
      · simp only [Bool.false_eq_true, if_false] at further ⊢
        rw [stops, List.findSome?_cons, shifted, ← further]
        simp only [List.head?_cons, Option.any_some, hc, if_true, Spot.next_cons, Spot.skip]
        cases k (⟨before, c :: rest, index⟩, g) <;> rfl
      · simp only [if_true] at further ⊢
        rw [stops, List.reverse_cons, List.findSome?_append, ← List.map_reverse, shifted, ← further]
        simp [hc, Spot.next_cons, Spot.skip]

theorem length_takeWhile_add (p : Char → Bool) (s : List Char) :
    (s.takeWhile p).length + (s.dropWhile p).length = s.length := by
  rw [← List.length_append, List.takeWhile_append_dropWhile]

theorem skip_takeWhile (p : Char → Bool) (s : Spot) :
    s.skip (s.after.takeWhile p).length = s.upto (s.after.dropWhile p) := by
  have h := length_takeWhile_add p s.after
  rw [Spot.upto]
  congr 1
  omega

/-- A greedy run goes on from its end, if a shorter one could go on only where that one can. -/
theorem pursue_run {s : CharSet} {x : Stand}
    (h : ∀ n < (x.1.after.takeWhile s.has).length,
      k (x.1.upto (x.1.after.dropWhile s.has), x.2) = none → k (x.1.skip n, x.2) = none) :
    (star true (char s)).pursue x k = k (x.1.upto (x.1.after.dropWhile s.has), x.2) := by
  rw [pursue_star_char, ← skip_takeWhile]
  rw [← skip_takeWhile] at h
  simp only [if_true, List.range_succ, List.reverse_append, List.reverse_singleton,
    List.singleton_append, List.findSome?_cons]
  cases last : k (x.1.skip (x.1.after.takeWhile s.has).length, x.2) with
  | some a => rfl
  | none =>
    refine List.findSome?_eq_none_iff.2 fun n hn => h n ?_ last
    simpa using hn

def Refuses (k : Stand → Option α) (s : CharSet) : Prop :=
  ∀ x : Stand, x.1.after.head?.any s.has = true → k x = none

theorem refuses_pursue {p : Pattern} {s : CharSet} (hp : p.nullable = false)
    (h : ∀ c, s.has c = true → p.first.has c = false) : Refuses (fun x => p.pursue x k) s := by
  intro x hx
  apply pursue_eq_none
  cases hs : x.1.after with
  | nil => simp [hs] at hx
  | cons c rest =>
    have hc : s.has c = true := by simpa [hs] using hx
    simp [mayStart, hp, h c hc]

theorem head?_drop_any {p : Char → Bool} {s : List Char} {n : Nat}
    (h : n < (s.takeWhile p).length) : (s.drop n).head?.any p = true := by
  induction s generalizing n with
  | nil => simp at h
  | cons c s ih =>
    cases hc : p c with
    | false => simp [hc] at h
    | true =>
      cases n with
      | zero => simpa using hc
      | succ n =>
        rw [List.takeWhile_cons_of_pos hc, List.length_cons] at h
        exact ih (Nat.lt_of_succ_lt_succ h)

theorem pursue_run_of_refuses {s : CharSet} (hk : Refuses k s) (x : Stand) :
    (star true (char s)).pursue x k = k (x.1.upto (x.1.after.dropWhile s.has), x.2) := by
  refine pursue_run fun n hn _ => hk _ ?_
  rw [Spot.after_skip]
  exact head?_drop_any hn

theorem pursue_run1 {s : CharSet} {x : Stand}
    (h : ∀ n < (x.1.after.takeWhile s.has).length,
      k (x.1.upto (x.1.after.dropWhile s.has), x.2) = none → k (x.1.skip n, x.2) = none) :
    (plus true (char s)).pursue x k =
      if x.1.after.head?.any s.has then k (x.1.upto (x.1.after.dropWhile s.has), x.2)
      else none := by
  rw [pursue_plus rfl, pursue_char]
  split
  · rename_i hs
    cases hx : x.1.after with
    | nil => simp [hx] at hs
    | cons c rest =>
      have hc : s.has c = true := by simpa [hx] using hs
      have behind : x.1.next.after = rest := by rw [Spot.after_next, hx, List.tail_cons]
      have at_end : x.1.next.upto (rest.dropWhile s.has) =
          x.1.upto ((c :: rest).dropWhile s.has) := by
        rw [List.dropWhile_cons_of_pos hc, Spot.next_eq_upto hx,
          Spot.upto_upto (hx ▸ List.suffix_cons c rest) (List.dropWhile_suffix _)]
      rw [pursue_run fun n hn => ?_, behind, at_end]
      rw [behind] at hn ⊢
      rw [at_end, ← hx, Spot.next_eq_skip, Spot.skip_skip, Nat.add_comm]
      apply h _
      rw [hx, List.takeWhile_cons_of_pos hc, List.length_cons]
      exact Nat.succ_lt_succ hn
  · rfl

theorem pursue_run1_of_refuses {s : CharSet} (hk : Refuses k s) (x : Stand) :
    (plus true (char s)).pursue x k =
      if x.1.after.head?.any s.has then k (x.1.upto (x.1.after.dropWhile s.has), x.2)
      else none := by
  refine pursue_run1 fun n hn _ => hk _ ?_
  rw [Spot.after_skip]
  exact head?_drop_any hn

theorem findSome?_const {β : Type} {xs : List β} {f : β → Option α} {b : Option α}
    (h : ∀ x ∈ xs, f x = b) : xs.findSome? f = if xs.isEmpty then none else b := by
  induction xs with
  | nil => rfl
  | cons x xs ih =>
    have rest := ih fun y hy => h y (List.mem_cons_of_mem x hy)
    rw [List.findSome?_cons, h x List.mem_cons_self, rest]
    cases b <;> simp

theorem pursue_run_of_const {s : CharSet} {x : Stand} {b : Option α}
    (h : ∀ n < (x.1.after.takeWhile s.has).length, k (x.1.skip n, x.2) = b) :
    (star true (char s)).pursue x k =
      (k (x.1.upto (x.1.after.dropWhile s.has), x.2)).or
        (if x.1.after.head?.any s.has then b else none) := by
  have shorter : (List.range (x.1.after.takeWhile s.has).length).reverse.findSome?
      (fun n => k (x.1.skip n, x.2)) = if x.1.after.head?.any s.has then b else none := by
    rw [findSome?_const fun n hn => h n (by simpa using hn)]
    cases x.1.after with
    | nil => simp
    | cons c rest => cases hc : s.has c <;> simp [hc]
  rw [pursue_star_char, ← skip_takeWhile]
  simp only [if_true, List.range_succ, List.reverse_append, List.reverse_singleton,
    List.singleton_append, List.findSome?_cons, shorter]
  cases k (x.1.skip (x.1.after.takeWhile s.has).length, x.2) <;> rfl

/-- A greedy run goes on from its end, or else from the place before, if a shorter one could go on
only where that one can. -/
theorem pursue_run_back {s : CharSet} {x : Stand}
    (h : ∀ n < (x.1.after.takeWhile s.has).length,
      k (x.1.skip ((x.1.after.takeWhile s.has).length - 1), x.2) = none →
        k (x.1.skip n, x.2) = none) :
    (star true (char s)).pursue x k =
      (k (x.1.upto (x.1.after.dropWhile s.has), x.2)).or
        (k (x.1.skip ((x.1.after.takeWhile s.has).length - 1), x.2)) := by
  rw [pursue_star_char, ← skip_takeWhile]
  generalize (x.1.after.takeWhile s.has).length = m at h ⊢
  simp only [if_true, List.range_succ, List.reverse_append, List.reverse_singleton,
    List.singleton_append, List.findSome?_cons]
  cases at_end : k (x.1.skip m, x.2) with
  | some a => rfl
  | none =>
    rw [Option.none_or]
    cases m with
    | zero => exact at_end.symm
    | succ m =>
      simp only [List.range_succ, List.reverse_append, List.reverse_singleton,
        List.singleton_append, List.findSome?_cons, Nat.add_sub_cancel] at h ⊢
      cases last : k (x.1.skip m, x.2) with
      | some a => rfl
      | none =>
        refine List.findSome?_eq_none_iff.2 fun n hn => h n ?_ last
        have hn : n < m := by simpa using hn
        exact Nat.lt_succ_of_lt hn

theorem has_blank : CharSet.blank.has = Text.isBlank := funext fun _ => rfl

theorem pursue_blanks (hk : Refuses k .blank) (x : Stand) :
    blanks.pursue x k = k (x.1.upto (Text.trimStart x.1.after), x.2) :=
  pursue_run_of_refuses hk x

theorem pursue_blanks1 (hk : Refuses k .blank) (x : Stand) :
    blanks1.pursue x k =
      (Text.afterBlanks? x.1.after).bind fun rest => k (x.1.upto rest, x.2) := by
  refine (pursue_run1_of_refuses hk x).trans ?_
  rw [has_blank]
  unfold Text.afterBlanks? Text.trimStart
  split <;> rfl

theorem pursue_blanks_of_some {x : Stand} {a : α}
    (h : k (x.1.upto (Text.trimStart x.1.after), x.2) = some a) : blanks.pursue x k = some a := by
  refine (pursue_run fun n _ no_end => ?_).trans h
  exact absurd (h.symm.trans no_end) (Option.some_ne_none a)

theorem pursue_blanks1_of_some {x : Stand} {rest : List Char} {a : α}
    (hr : Text.afterBlanks? x.1.after = some rest) (h : k (x.1.upto rest, x.2) = some a) :
    blanks1.pursue x k = some a := by
  obtain ⟨first, rfl⟩ := Text.afterBlanks?_eq_some_iff.1 hr
  refine (pursue_run1 fun n _ no_end => ?_).trans ?_
  · exact absurd (h.symm.trans no_end) (Option.some_ne_none a)
  · rw [has_blank, if_pos first]
    exact h

end Words

end Snapshot.Pattern

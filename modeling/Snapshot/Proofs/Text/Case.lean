import Mathlib.Data.List.Infix
import Mathlib.Data.List.TakeWhile
import Snapshot.Text.Case

/-!
# Lower case of the pieces of a text

The lower case of a text is not made piece by piece: whether a capital sigma becomes the final one
depends on the letters around it, and these may lie in other pieces. A piece keeps its own lower
case wherever it stands if and only if none of its sigmas hangs on what stands around the piece. At
a character that is neither cased nor case-ignorable a text can always be cut.
-/

namespace Snapshot.Text

theorem meetsCased_append (s t : List Char) :
    meetsCased (s ++ t) = if s.all isCaseIgnorable then meetsCased t else meetsCased s := by
  rw [meetsCased, List.dropWhile_append]
  by_cases ignorable : s.all isCaseIgnorable = true
  · have none_left : s.dropWhile isCaseIgnorable = [] :=
      List.dropWhile_eq_nil_iff.2 (List.all_eq_true.1 ignorable)
    rw [none_left, if_pos ignorable]
    rfl
  · have left : s.dropWhile isCaseIgnorable ≠ [] := fun none_left =>
      ignorable (List.all_eq_true.2 (List.dropWhile_eq_nil_iff.1 none_left))
    obtain ⟨c, rest, first⟩ := List.exists_cons_of_ne_nil left
    rw [if_neg ignorable, meetsCased, first]
    rfl

theorem meetsCased_of_ignorable {s : List Char} (h : s.all isCaseIgnorable = true) :
    meetsCased s = false := by
  have alone := meetsCased_append s []
  rwa [List.append_nil, if_pos h] at alone

theorem meetsCased_append_cons {c : Char} (h : isCaseIgnorable c = false) (s t : List Char) :
    meetsCased (s ++ c :: t) = meetsCased (s ++ [c]) := by
  have first : ∀ t, meetsCased (c :: t) = isCased c := by
    intro t
    rw [meetsCased, List.dropWhile_cons_of_neg (by simp [h])]
  rw [meetsCased_append, meetsCased_append, first, first]

def endsWord (before behind : List Char) : Bool := meetsCased before && !meetsCased behind

def lowerBetween (before behind : List Char) (c : Char) : List Char :=
  if c = 'Σ' then [if endsWord before behind then 'ς' else 'σ'] else lowerChar c

def lowercaseBetween (before behind : List Char) : List Char → List Char
  | [] => []
  | c :: s => lowerBetween before (s ++ behind) c ++ lowercaseBetween (c :: before) behind s

theorem lowercaseBetween_append (before behind s t : List Char) :
    lowercaseBetween before behind (s ++ t) = lowercaseBetween before (t ++ behind) s ++
      lowercaseBetween (s.reverse ++ before) behind t := by
  induction s generalizing before with
  | nil => rfl
  | cons c s ih =>
    rw [List.cons_append, lowercaseBetween, ih, lowercaseBetween, List.append_assoc,
      List.append_assoc, List.reverse_cons, List.append_assoc]
    rfl

theorem lowercaseFrom_eq (before s : List Char) :
    lowercaseFrom before s = lowercaseBetween before [] s := by
  induction s generalizing before with
  | nil => rfl
  | cons c s ih =>
    rw [lowercaseFrom, ih, lowercaseBetween, List.append_nil]
    rfl

theorem lowercaseFrom_append (before s t : List Char) : lowercaseFrom before (s ++ t) =
    lowercaseBetween before t s ++ lowercaseFrom (s.reverse ++ before) t := by
  rw [lowercaseFrom_eq, lowercaseBetween_append, List.append_nil, lowercaseFrom_eq]

/-- The lower case of a piece is told by the forms of its sigmas. -/
theorem lowercaseBetween_congr {before before' behind behind' k : List Char}
    (h : ∀ p s, k = p ++ 'Σ' :: s → endsWord (p.reverse ++ before) (s ++ behind) =
      endsWord (p.reverse ++ before') (s ++ behind')) :
    lowercaseBetween before behind k = lowercaseBetween before' behind' k := by
  induction k generalizing before before' with
  | nil => rfl
  | cons c k ih =>
    have first : lowerBetween before (k ++ behind) c = lowerBetween before' (k ++ behind') c := by
      by_cases sigma : c = 'Σ'
      · have form := h [] k (by rw [sigma, List.nil_append])
        rw [List.reverse_nil, List.nil_append, List.nil_append] at form
        rw [lowerBetween, lowerBetween, form]
      · rw [lowerBetween, lowerBetween, if_neg sigma, if_neg sigma]
    have others : lowercaseBetween (c :: before) behind k =
        lowercaseBetween (c :: before') behind' k := by
      refine ih fun p s same => ?_
      have form := h (c :: p) s (by rw [same, List.cons_append])
      rwa [List.reverse_cons, List.append_assoc, List.append_assoc] at form
    rw [lowercaseBetween, lowercaseBetween, first, others]

section Cut
variable {c : Char} (dark : isCaseIgnorable c = false)
include dark

theorem lowercaseBetween_behind (before s t : List Char) :
    lowercaseBetween before (c :: t) s = lowercaseBetween before [c] s := by
  refine lowercaseBetween_congr fun p q _ => ?_
  rw [endsWord, endsWord, meetsCased_append_cons dark]

theorem lowercaseBetween_before (before behind s : List Char) :
    lowercaseBetween (c :: before) behind s = lowercaseBetween [c] behind s := by
  refine lowercaseBetween_congr fun p q _ => ?_
  rw [endsWord, endsWord, meetsCased_append_cons dark]

/-- At a character that is neither cased nor case-ignorable the lower case of a text can be cut. -/
theorem lowercase_append_cons (caseless : isCased c = false) (s t : List Char) :
    lowercase (s ++ c :: t) = lowercase s ++ lowerChar c ++ lowercase t := by
  have alone : ∀ s : List Char, meetsCased (s ++ [c]) = meetsCased s := by
    intro s
    rw [meetsCased_append, meetsCased, List.dropWhile_cons_of_neg (by simp [dark])]
    split
    · rename_i ignorable
      exact caseless.trans (meetsCased_of_ignorable ignorable).symm
    · rfl
  have no_sigma : c ≠ 'Σ' := by
    rintro rfl
    exact absurd caseless (by decide +kernel)
  have before : lowercaseBetween [] (c :: t) s = lowercaseBetween [] [] s := by
    rw [lowercaseBetween_behind dark]
    refine lowercaseBetween_congr fun p q _ => ?_
    rw [endsWord, endsWord, alone, List.append_nil, List.append_nil]
  have behind : lowercaseBetween (c :: (s.reverse ++ [])) [] t = lowercaseBetween [] [] t := by
    rw [lowercaseBetween_before dark]
    refine lowercaseBetween_congr fun p q _ => ?_
    rw [endsWord, endsWord, alone, List.append_nil, List.append_nil]
  rw [lowercase, lowercaseFrom_append, lowercaseFrom, if_neg no_sigma, lowercaseFrom_eq, before,
    behind, lowercase, lowercase, lowercaseFrom_eq, lowercaseFrom_eq, List.append_assoc]

end Cut

theorem lowercaseBetween_sigma (before behind p s : List Char) :
    lowercaseBetween before behind (p ++ 'Σ' :: s) = lowercaseBetween before ['Σ'] p ++
      (if endsWord (p.reverse ++ before) (s ++ behind) then 'ς' else 'σ') ::
        lowercaseBetween ['Σ'] behind s := by
  have dark : isCaseIgnorable 'Σ' = false := by decide +kernel
  rw [lowercaseBetween_append, List.cons_append, lowercaseBetween_behind dark, lowercaseBetween,
    lowercaseBetween_before dark, lowerBetween, if_pos rfl]
  rfl

def KeepsSigmas (before behind k : List Char) : Prop :=
  ∀ p s, k = p ++ 'Σ' :: s →
    endsWord (p.reverse ++ before) (s ++ behind) = endsWord p.reverse s

/-- One of the sigmas hangs on what stands around the piece. Case-ignorable characters not counted,
it is the first character and no cased letter comes next, or it is the last one and a cased letter
comes right before it. -/
def HasLooseSigma (k : List Char) : Prop :=
  ∃ p s, k = p ++ 'Σ' :: s ∧ (p.all isCaseIgnorable = true ∧ meetsCased s = false ∨
    meetsCased p.reverse = true ∧ s.all isCaseIgnorable = true)

theorem length_lowercaseBetween (before before' behind behind' k : List Char) :
    (lowercaseBetween before behind k).length = (lowercaseBetween before' behind' k).length := by
  induction k generalizing before before' with
  | nil => rfl
  | cons c k ih =>
    have first : (lowerBetween before (k ++ behind) c).length =
        (lowerBetween before' (k ++ behind') c).length := by
      by_cases sigma : c = 'Σ'
      · rw [lowerBetween, lowerBetween, if_pos sigma, if_pos sigma]
        rfl
      · rw [lowerBetween, lowerBetween, if_neg sigma, if_neg sigma]
    rw [lowercaseBetween, lowercaseBetween, List.length_append, List.length_append, first,
      ih (c :: before) (c :: before')]

theorem keepsSigmas_iff {before behind k : List Char} :
    KeepsSigmas before behind k ↔ lowercaseBetween before behind k = lowercase k := by
  rw [lowercase, lowercaseFrom_eq]
  constructor
  · intro h
    refine lowercaseBetween_congr fun p s same => ?_
    rw [h p s same, List.append_nil, List.append_nil]
  · rintro h p s rfl
    rw [lowercaseBetween_sigma, lowercaseBetween_sigma, List.append_nil, List.append_nil] at h
    have letter := (List.cons.inj (List.append_inj h (length_lowercaseBetween _ _ _ _ p)).2).1
    revert letter
    cases endsWord (p.reverse ++ before) (s ++ behind) <;> cases endsWord p.reverse s <;> decide

instance (before behind k : List Char) : Decidable (KeepsSigmas before behind k) :=
  decidable_of_iff _ keepsSigmas_iff.symm

theorem keepsSigmas_of_not_loose {k : List Char} (h : ¬ HasLooseSigma k)
    (before behind : List Char) : KeepsSigmas before behind k := by
  intro p s same
  have all_reverse : p.reverse.all isCaseIgnorable = p.all isCaseIgnorable := List.all_reverse
  rw [endsWord, endsWord, meetsCased_append, meetsCased_append, all_reverse]
  by_cases first : p.all isCaseIgnorable = true
  · -- A cased letter behind the sigma settles its form.
    have cased : meetsCased s = true := by
      by_contra uncased
      exact h ⟨p, s, same, .inl ⟨first, Bool.eq_false_iff.2 uncased⟩⟩
    have more : ¬ s.all isCaseIgnorable = true := fun ignorable => by
      rw [meetsCased_of_ignorable ignorable] at cased
      cases cased
    rw [if_neg more, cased, Bool.not_true, Bool.and_false, Bool.and_false]
  · rw [if_neg first]
    by_cases last : s.all isCaseIgnorable = true
    · -- No cased letter before the sigma settles it as well.
      have uncased : meetsCased p.reverse = false := by
        by_contra cased
        exact h ⟨p, s, same, .inr ⟨Bool.of_not_eq_false cased, last⟩⟩
      rw [uncased, Bool.false_and, Bool.false_and]
    · rw [if_neg last]

theorem lowercase_around (u k v : List Char) : lowercase (u ++ (k ++ v)) =
    lowercaseBetween [] (k ++ v) u ++
      (lowercaseBetween u.reverse v k ++ lowercaseFrom (k.reverse ++ u.reverse) v) := by
  rw [lowercase, lowercaseFrom_append, List.append_nil, lowercaseFrom_append]

theorem infix_of_keeps {u k v : List Char} (h : KeepsSigmas u.reverse v k) :
    lowercase k <:+: lowercase (u ++ (k ++ v)) := by
  rw [lowercase_around, keepsSigmas_iff.1 h]
  exact ⟨_, _, List.append_assoc _ _ _⟩

theorem lowercaseBetween_of_ignorable {s : List Char} (h : s.all isCaseIgnorable = true)
    (before before' behind behind' : List Char) :
    lowercaseBetween before behind s = lowercaseBetween before' behind' s := by
  refine lowercaseBetween_congr fun p q same => ?_
  have ignorable := List.all_eq_true.1 h 'Σ' (by rw [same]; simp)
  exact absurd ignorable (by decide +kernel)

theorem not_infix_of_changed {x y : Char} (ne : y ≠ x) {u v : List Char} (hu : x ∉ u) (hv : x ∉ v)
    (p s : List Char) : ¬ p ++ x :: s <:+: u ++ (p ++ y :: s ++ v) := by
  intro inside
  have fewer := inside.sublist.count_le x
  rw [List.count_append, List.count_append, List.count_append, List.count_append,
    List.count_cons_self, List.count_cons_of_ne ne, List.count_eq_zero.2 hu,
    List.count_eq_zero.2 hv] at fewer
  omega

theorem exists_missed_of_loose {k : List Char} (h : HasLooseSigma k) :
    ∃ u v, ¬ lowercase k <:+: lowercase (u ++ (k ++ v)) := by
  obtain ⟨p, s, rfl, ⟨ignorable, uncased⟩ | ⟨cased, ignorable⟩⟩ := h
  · have ignorable_before := List.all_reverse.trans ignorable
    have form : endsWord p.reverse s = false := by
      rw [endsWord, meetsCased_of_ignorable ignorable_before, Bool.false_and]
    have form' : endsWord (p.reverse ++ ['A']) s = true := by
      rw [endsWord, meetsCased_append, if_pos ignorable_before, uncased]
      decide +kernel
    have letter : lowercaseBetween [] (p ++ 'Σ' :: s ++ []) ['A'] = ['a'] := rfl
    refine ⟨['A'], [], ?_⟩
    rw [lowercase_around, letter, lowercase, lowercaseFrom_eq, lowercaseBetween_sigma,
      lowercaseBetween_sigma, List.append_nil, List.append_nil, List.reverse_singleton, form, form',
      lowercaseBetween_of_ignorable ignorable ['A'] [] ['Σ'] ['Σ']]
    exact not_infix_of_changed (by decide) (by decide) List.not_mem_nil _ _
  · have form : endsWord p.reverse s = true := by
      rw [endsWord, cased, meetsCased_of_ignorable ignorable]
      rfl
    have form' : endsWord p.reverse (s ++ ['A']) = false := by
      have capital : meetsCased ['A'] = true := by decide +kernel
      rw [endsWord, meetsCased_append, if_pos ignorable, capital, Bool.not_true, Bool.and_false]
    have letter : lowercaseFrom ((p ++ 'Σ' :: s).reverse ++ [].reverse) ['A'] = ['a'] := rfl
    refine ⟨[], ['A'], ?_⟩
    rw [lowercase_around, letter, lowercase, lowercaseFrom_eq, lowercaseBetween_sigma,
      lowercaseBetween_sigma, List.reverse_nil, List.append_nil, List.append_nil, form, form',
      lowercaseBetween_of_ignorable ignorable ['Σ'] ['Σ'] ['A'] []]
    exact not_infix_of_changed (by decide) List.not_mem_nil (by decide) _ _

/-- A piece keeps its lower case wherever it stands if and only if it has no loose sigma. -/
theorem lowercase_infix_iff {k : List Char} :
    (∀ s, k <:+: s → lowercase k <:+: lowercase s) ↔ ¬ HasLooseSigma k := by
  constructor
  · intro kept loose
    obtain ⟨u, v, missed⟩ := exists_missed_of_loose loose
    exact missed (kept _ ⟨u, v, List.append_assoc u k v⟩)
  · rintro settled s ⟨u, v, rfl⟩
    rw [List.append_assoc]
    exact infix_of_keeps (keepsSigmas_of_not_loose settled u.reverse v)

end Snapshot.Text

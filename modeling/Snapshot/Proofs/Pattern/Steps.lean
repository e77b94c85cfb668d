import Mathlib.Data.List.Basic
import Snapshot.Pattern.Match.Start

/-!
# Steps over a character

Each part of a pattern that takes a character makes one step, and what is left after it is always
the same. So the number of a part tells a step and with it all that may follow. This is why a head
may be dropped if another head takes its character at the same part.
-/

namespace Snapshot.Pattern

structure Step where
  part : Nat
  chars : CharSet
  left : List Task

namespace Step

def append (tasks : List Task) (s : Step) : Step := { s with left := s.left ++ tasks }

def head (s : Step) (g : Groups) : Head := .take s.part s.chars s.left g

theorem append_nil (s : Step) : s.append [] = s := by
  rw [append, List.append_nil]

theorem append_append (s : Step) (xs ys : List Task) :
    (s.append xs).append ys = s.append (xs ++ ys) := by
  rw [append, append, append, List.append_assoc]

end Step

def steps : Nat → Pattern → List Step
  | _, empty | _, edge _ => []
  | n, char s => [⟨n, s, []⟩]
  | n, seq a b => (steps (2 * n) a).map (·.append (tasksOf (2 * n + 1) b)) ++ steps (2 * n + 1) b
  | n, alt a b => steps (2 * n) a ++ steps (2 * n + 1) b
  | n, star greedy a => (steps (2 * n) a).map (·.append [.run n (star greedy a)])
  | n, plus greedy a => (steps (2 * n) a).map (·.append [.again (2 * n) greedy a])
  | n, group k a => (steps (2 * n) a).map (·.append [.leave k])

def Beneath (n m : Nat) : Prop := ∃ k, m >>> k = n

theorem beneath_self (n : Nat) : Beneath n n := ⟨0, rfl⟩

theorem Beneath.half {n m : Nat} (h : Beneath n m) : Beneath (n / 2) m := by
  obtain ⟨k, rfl⟩ := h
  exact ⟨k + 1, rfl⟩

theorem Beneath.of_left {n m : Nat} (h : Beneath (2 * n) m) : Beneath n m := by
  simpa using h.half

theorem Beneath.of_right {n m : Nat} (h : Beneath (2 * n + 1) m) : Beneath n m := by
  have both : (2 * n + 1) / 2 = n := by omega
  exact both ▸ h.half

theorem Beneath.left_ne_right {n m m' : Nat} (pos : 0 < n) (left : Beneath (2 * n) m)
    (right : Beneath (2 * n + 1) m') : m ≠ m' := by
  rintro rfl
  obtain ⟨k, hk⟩ := left
  obtain ⟨l, hl⟩ := right
  rcases Nat.lt_trichotomy k l with lt | rfl | lt
  · obtain ⟨d, rfl⟩ := Nat.exists_eq_add_of_lt lt
    rw [Nat.add_assoc, Nat.shiftRight_add, hk] at hl
    have le : (2 * n) >>> (d + 1) ≤ 2 * n := Nat.shiftRight_le _ _
    omega
  · omega
  · obtain ⟨d, rfl⟩ := Nat.exists_eq_add_of_lt lt
    rw [Nat.add_assoc, Nat.shiftRight_add, hl, Nat.shiftRight_succ_inside] at hk
    have le : ((2 * n + 1) / 2) >>> d ≤ (2 * n + 1) / 2 := Nat.shiftRight_le _ _
    omega

theorem beneath_of_mem_steps {n : Nat} {p : Pattern} {s : Step} (h : s ∈ steps n p) :
    Beneath n s.part := by
  induction p generalizing n s with
  | empty | edge e => cases h
  | char t =>
    rw [List.mem_singleton.1 h]
    exact beneath_self n
  | seq a b iha ihb =>
    rcases List.mem_append.1 h with h | h
    · obtain ⟨t, ht, rfl⟩ := List.mem_map.1 h
      exact (iha ht).of_left
    · exact (ihb h).of_right
  | alt a b iha ihb =>
    exact (List.mem_append.1 h).elim (fun h => (iha h).of_left) fun h => (ihb h).of_right
  | star greedy a ih | plus greedy a ih | group k a ih =>
    obtain ⟨t, ht, rfl⟩ := List.mem_map.1 h
    exact (ih ht).of_left

theorem part_ne {n : Nat} (pos : 0 < n) {a b : Pattern} {s t : Step} (hs : s ∈ steps (2 * n) a)
    (ht : t ∈ steps (2 * n + 1) b) : s.part ≠ t.part :=
  Beneath.left_ne_right pos (beneath_of_mem_steps hs) (beneath_of_mem_steps ht)

theorem steps_unique {n : Nat} {p : Pattern} {s t : Step} (pos : 0 < n) (hs : s ∈ steps n p)
    (ht : t ∈ steps n p) (same : s.part = t.part) : s = t := by
  induction p generalizing n s t with
  | empty | edge e => cases hs
  | char c => rw [List.mem_singleton.1 hs, List.mem_singleton.1 ht]
  | seq a b iha ihb =>
    rcases List.mem_append.1 hs with hs | hs <;> rcases List.mem_append.1 ht with ht | ht
    · obtain ⟨s, inner, rfl⟩ := List.mem_map.1 hs
      obtain ⟨t, inner', rfl⟩ := List.mem_map.1 ht
      rw [iha (by omega) inner inner' same]
    · obtain ⟨s, inner, rfl⟩ := List.mem_map.1 hs
      exact (part_ne pos inner ht same).elim
    · obtain ⟨t, inner', rfl⟩ := List.mem_map.1 ht
      exact (part_ne pos inner' hs same.symm).elim
    · exact ihb (by omega) hs ht same
  | alt a b iha ihb =>
    rcases List.mem_append.1 hs with hs | hs <;> rcases List.mem_append.1 ht with ht | ht
    · exact iha (by omega) hs ht same
    · exact absurd same (part_ne pos hs ht)
    · exact absurd same.symm (part_ne pos ht hs)
    · exact ihb (by omega) hs ht same
  | star greedy a ih | plus greedy a ih | group k a ih =>
    obtain ⟨s, inner, rfl⟩ := List.mem_map.1 hs
    obtain ⟨t, inner', rfl⟩ := List.mem_map.1 ht
    rw [ih (by omega) inner inner' same]

def Task.steps : Task → List Step
  | run n p => Pattern.steps n p
  | again n greedy p => (Pattern.steps n p).map (·.append [.again n greedy p])
  | leave _ => []

def stepsOf : List Task → List Step
  | [] => []
  | t :: rest => t.steps.map (·.append rest) ++ stepsOf rest

theorem map_append_append (ss : List Step) (xs ys : List Task) :
    (ss.map (·.append xs)).map (·.append ys) = ss.map (·.append (xs ++ ys)) := by
  rw [List.map_map]
  exact List.map_congr_left fun s _ => s.append_append xs ys

theorem stepsOf_append (xs ys : List Task) :
    stepsOf (xs ++ ys) = (stepsOf xs).map (·.append ys) ++ stepsOf ys := by
  induction xs with
  | nil => rfl
  | cons t xs ih =>
    rw [List.cons_append, stepsOf, stepsOf, ih, List.map_append, map_append_append,
      List.append_assoc]

theorem stepsOf_singleton (t : Task) : stepsOf [t] = t.steps := by
  rw [stepsOf, stepsOf, List.append_nil, List.map_congr_left fun s _ => s.append_nil, List.map_id']

theorem stepsOf_tasksOf (n : Nat) (p : Pattern) : stepsOf (tasksOf n p) = steps n p := by
  induction p generalizing n with
  | empty => rfl
  | seq a b iha ihb => rw [tasksOf, stepsOf_append, iha, ihb, steps]
  | char s | edge e | alt a b | star greedy a | plus greedy a | group k a =>
    exact stepsOf_singleton _

theorem stepsOf_append_subset {ss : List Step} {xs : List Task} (hx : stepsOf xs ⊆ ss)
    (ys : List Task) : stepsOf (xs ++ ys) ⊆ ss.map (·.append ys) ++ stepsOf ys := by
  rw [stepsOf_append]
  refine List.append_subset.2 ⟨?_, List.subset_append_right _ _⟩
  exact List.subset_append_of_subset_left _ (List.map_subset _ hx)

theorem stepsOf_concat_subset {ss : List Step} {xs : List Task} {t : Task} (hx : stepsOf xs ⊆ ss)
    (ht : t.steps ⊆ ss.map (·.append [t])) : stepsOf (xs ++ [t]) ⊆ ss.map (·.append [t]) := by
  have both := stepsOf_append_subset hx [t]
  rw [stepsOf_singleton] at both
  exact List.Subset.trans both (List.append_subset.2 ⟨List.Subset.refl _, ht⟩)

/-- What is left after a step makes no other steps than the pattern has. -/
theorem stepsOf_left_subset {n : Nat} {p : Pattern} {s : Step} (h : s ∈ steps n p) :
    stepsOf s.left ⊆ steps n p := by
  induction p generalizing n s with
  | empty | edge e => cases h
  | char t =>
    rw [List.mem_singleton.1 h]
    exact List.nil_subset _
  | seq a b iha ihb =>
    rcases List.mem_append.1 h with h | h
    · obtain ⟨t, ht, rfl⟩ := List.mem_map.1 h
      have inner := stepsOf_append_subset (iha ht) (tasksOf (2 * n + 1) b)
      rwa [stepsOf_tasksOf] at inner
    · exact List.subset_append_of_subset_right _ (ihb h)
  | alt a b iha ihb =>
    rcases List.mem_append.1 h with h | h
    · exact List.subset_append_of_subset_left _ (iha h)
    · exact List.subset_append_of_subset_right _ (ihb h)
  | star greedy a ih | plus greedy a ih =>
    obtain ⟨t, ht, rfl⟩ := List.mem_map.1 h
    exact stepsOf_concat_subset (ih ht) (List.Subset.refl _)
  | group k a ih =>
    obtain ⟨t, ht, rfl⟩ := List.mem_map.1 h
    exact stepsOf_concat_subset (ih ht) (List.nil_subset _)

theorem step_of_mem_heads {spot : Spot} {n : Nat} {p : Pattern} {s : Step} {g g' : Groups}
    (h : s.head g' ∈ heads spot n p g) : s ∈ steps n p := by
  obtain ⟨m, chars, left⟩ := s
  induction p generalizing n m chars left g g' with
  | empty => simp [heads, Step.head] at h
  | char t =>
    obtain ⟨rfl, rfl, rfl, -⟩ := Head.take.inj (List.mem_singleton.1 h)
    exact List.mem_singleton_self _
  | edge e =>
    unfold heads at h
    split at h <;> simp [Step.head] at h
  | seq a b iha ihb =>
    obtain ⟨x, hx, h⟩ := List.mem_flatMap.1 h
    cases x with
    | done g₁ => exact List.mem_append_right _ (ihb _ _ _ h)
    | take m' chars' left' g₁ =>
      obtain ⟨rfl, rfl, rfl, -⟩ := Head.take.inj (List.mem_singleton.1 h)
      exact List.mem_append_left _ (List.mem_map_of_mem (iha _ _ _ hx))
  | alt a b iha ihb =>
    rcases mem_orElse h with h | h
    · exact List.mem_append_left _ (iha _ _ _ h)
    · exact List.mem_append_right _ (ihb _ _ _ h)
  | star greedy a ih =>
    obtain ⟨x, hx, h⟩ := (mem_heads_star.1 h).resolve_left Head.noConfusion
    cases x with
    | done g₁ => cases h
    | take m' chars' left' g₁ =>
      obtain ⟨rfl, rfl, rfl, -⟩ := Head.take.inj h
      exact List.mem_map_of_mem (ih _ _ _ (mem_takes hx))
  | plus greedy a ih | group k a ih =>
    obtain ⟨x, hx, h⟩ := List.mem_map.1 h
    cases x with
    | done g₁ => cases h
    | take m' chars' left' g₁ =>
      obtain ⟨rfl, rfl, rfl, -⟩ := Head.take.inj h
      exact List.mem_map_of_mem (ih _ _ _ hx)

def Task.heads (spot : Spot) (g : Groups) : Task → List Head
  | run n p => Pattern.heads spot n p g
  | again n greedy p =>
    .done g :: (takes (Pattern.heads spot n p g)).map (·.append [.again n greedy p])
  | leave k => [.done (g.leave k spot.index)]

theorem step_of_mem_taskHeads {spot : Spot} {t : Task} {s : Step} {g g' : Groups}
    (h : s.head g' ∈ t.heads spot g) : s ∈ t.steps := by
  cases t with
  | run n p => exact step_of_mem_heads h
  | again n greedy p =>
    have more := (List.mem_cons.1 h).resolve_left Head.noConfusion
    obtain ⟨x, hx, h⟩ := List.mem_map.1 more
    cases x with
    | done g₁ => cases h
    | take m chars left g₁ =>
      obtain ⟨m', chars', left'⟩ := s
      obtain ⟨rfl, rfl, rfl, -⟩ := Head.take.inj h
      exact List.mem_map_of_mem (step_of_mem_heads (s := ⟨m, chars, left⟩) (mem_takes hx))
  | leave k => exact Head.noConfusion (List.mem_singleton.1 h)

/-- A head of a list of tasks is one of the first task, or one of the others if that can be done. -/
theorem exists_of_mem_headsOfTasks {spot : Spot} {seen : List (List Task)} {passed : List Nat}
    {t : Task} {rest : List Task} {x : Head} {g : Groups}
    (h : x ∈ headsOfTasks spot seen passed (t :: rest) g) :
    (∃ (s : Step) (g' : Groups), s.head g' ∈ t.heads spot g ∧ x = (s.append rest).head g') ∨
      ∃ g' passed', .done g' ∈ t.heads spot g ∧ x ∈ headsOfTasks spot seen passed' rest g' := by
  unfold headsOfTasks at h
  split at h
  · cases h
  cases t with
  | run n p =>
    obtain ⟨y, hy, h⟩ := List.mem_flatMap.1 h
    cases y with
    | done g₁ => exact .inr ⟨g₁, _, hy, h⟩
    | take m chars left g₁ => exact .inl ⟨⟨m, chars, left⟩, g₁, hy, List.mem_singleton.1 h⟩
  | again n greedy p =>
    have either : (∃ y ∈ takes (heads spot n p g), y.append (.again n greedy p :: rest) = x) ∨
        x ∈ headsOfTasks spot seen passed rest g := by
      cases greedy <;> rcases List.mem_append.1 h with h | h
      · exact .inr h
      · obtain ⟨y, hy, h⟩ := List.mem_map.1 h
        exact .inl ⟨y, (List.mem_filter.1 hy).1, h⟩
      · obtain ⟨y, hy, h⟩ := List.mem_map.1 h
        exact .inl ⟨y, (List.mem_filter.1 hy).1, h⟩
      · exact .inr h
    rcases either with ⟨y, hy, rfl⟩ | h
    · cases y with
      | done g₁ => simp [takes, Head.isDone] at hy
      | take m chars left g₁ =>
        let round := (Step.mk m chars left).append [.again n greedy p]
        have first : round.head g₁ ∈ (Task.again n greedy p).heads spot g :=
          List.mem_cons_of_mem _ (List.mem_map.2 ⟨_, hy, rfl⟩)
        have further := Step.append_append ⟨m, chars, left⟩ [.again n greedy p] rest
        exact .inl ⟨round, g₁, first, congrArg (Step.head · g₁) further.symm⟩
    · exact .inr ⟨g, passed, List.mem_cons_self, h⟩
  | leave k => exact .inr ⟨_, passed, List.mem_singleton_self _, h⟩

theorem step_of_mem_headsOfTasks {spot : Spot} {seen : List (List Task)} {passed : List Nat}
    {tasks : List Task} {s : Step} {g g' : Groups}
    (h : s.head g' ∈ headsOfTasks spot seen passed tasks g) : s ∈ stepsOf tasks := by
  induction tasks generalizing passed g with
  | nil => simp [headsOfTasks, Step.head] at h
  | cons t rest ih =>
    rcases exists_of_mem_headsOfTasks h with ⟨u, g₁, first, same⟩ | ⟨g₁, passed', -, h⟩
    · obtain ⟨m, chars, left⟩ := s
      obtain ⟨rfl, rfl, rfl, -⟩ := Head.take.inj same
      exact List.mem_append_left _ (List.mem_map_of_mem (step_of_mem_taskHeads first))
    · exact List.mem_append_right _ (ih h)

theorem exists_of_mem_headsOfThreads {spot : Spot} {seen : List (List Task)} {threads : List Thread}
    {h : Head} (hh : h ∈ headsOfThreads spot seen threads) :
    ∃ t ∈ threads, ∃ seen, h ∈ headsOfTasks spot seen [] t.tasks t.groups := by
  induction threads generalizing seen with
  | nil => cases hh
  | cons t ts ih =>
    rcases List.mem_append.1 hh with hh | hh
    · exact ⟨t, List.mem_cons_self, seen, hh⟩
    · obtain ⟨u, hu, seen', hh⟩ := ih hh
      exact ⟨u, List.mem_cons_of_mem t hu, seen', hh⟩

end Snapshot.Pattern

import Snapshot.Proofs.Pattern.Ways

/-!
# The work that threads leave

In a steady pattern every round of a loop takes a character as its last step, so no work is left of
one round when the next begins. What comes of the work that is left of a match is what comes of the
ways that the pattern has.
-/

namespace Snapshot.Pattern

/-- Whether every match takes a character as its last step. -/
def tight : Pattern → Bool
  | char _ => true
  | seq _ b => b.tight
  | alt a b => a.tight && b.tight
  | plus _ a | group _ a => a.tight
  | empty | edge _ | star .. => false

def steady : Pattern → Bool
  | empty | char _ | edge _ => true
  | seq a b | alt a b => a.steady && b.steady
  | star _ a | plus _ a => a.tight && a.steady
  | group _ a => a.steady

theorem nullable_eq_false_of_tight {p : Pattern} (h : p.tight = true) : p.nullable = false := by
  induction p with
  | empty | edge e | star greedy a => simp [tight] at h
  | char s => rfl
  | seq a b iha ihb => simp [nullable, ihb h]
  | alt a b iha ihb =>
    obtain ⟨ha, hb⟩ := Bool.and_eq_true_iff.1 h
    simp [nullable, iha ha, ihb hb]
  | plus greedy a ih => exact ih h
  | group k a ih => exact ih h

def endsTight (ok : Bool) : List Task → Bool
  | [] => ok
  | .run _ p :: rest => endsTight p.tight rest
  | .again .. :: rest | .leave _ :: rest => endsTight ok rest

/-- Work in which new rounds begin only behind tight parts. -/
def tidy (ok : Bool) : List Task → Bool
  | [] => true
  | .run _ p :: rest => p.steady && tidy p.tight rest
  | .again _ _ p :: rest => ok && p.tight && p.steady && tidy ok rest
  | .leave _ :: rest => tidy ok rest

theorem endsTight_append (ok : Bool) (xs ys : List Task) :
    endsTight ok (xs ++ ys) = endsTight (endsTight ok xs) ys := by
  induction xs generalizing ok with
  | nil => rfl
  | cons t xs ih => cases t <;> exact ih _

theorem tidy_append (ok : Bool) (xs ys : List Task) :
    tidy ok (xs ++ ys) = (tidy ok xs && tidy (endsTight ok xs) ys) := by
  induction xs generalizing ok with
  | nil => rfl
  | cons t xs ih =>
    cases t <;> simp only [List.cons_append, tidy, endsTight, ih, Bool.and_assoc]

theorem tidy_true {ok : Bool} {xs : List Task} (h : tidy ok xs = true) : tidy true xs = true := by
  induction xs with
  | nil => rfl
  | cons t xs ih =>
    cases t with
    | run n p => exact h
    | again n greedy p =>
      simp only [tidy, Bool.and_eq_true] at h ⊢
      exact ⟨⟨⟨trivial, h.1.1.2⟩, h.1.2⟩, ih h.2⟩
    | leave k => exact ih h

theorem endsTight_tasksOf {p : Pattern} (hp : p.tight = true) (n : Nat) (ok : Bool) :
    endsTight ok (tasksOf n p) = true := by
  induction p generalizing n ok with
  | empty | edge e | star greedy a => simp [tight] at hp
  | char s => rfl
  | seq a b iha ihb =>
    rw [tasksOf, endsTight_append]
    exact ihb hp _ _
  | alt a b iha ihb => exact hp
  | plus greedy a ih => exact hp
  | group k a ih => exact hp

theorem tidy_tasksOf {p : Pattern} (hp : p.steady = true) (n : Nat) (ok : Bool) :
    tidy ok (tasksOf n p) = true := by
  induction p generalizing n ok with
  | empty => rfl
  | seq a b iha ihb =>
    obtain ⟨ha, hb⟩ := Bool.and_eq_true_iff.1 hp
    rw [tasksOf, tidy_append, iha ha, ihb hb]
    rfl
  | char s | edge e | alt a b | star greedy a | plus greedy a | group k a =>
    simp [tasksOf, tidy, hp]

theorem tidy_left {spot : Spot} {n m : Nat} {p : Pattern} {g g' : Groups} {s : CharSet}
    {left : List Task} (h : .take m s left g' ∈ heads spot n p g) (hp : p.steady = true) :
    tidy true left = true ∧ (p.tight = true → endsTight true left = true) := by
  induction p generalizing n m g g' s left with
  | empty => simp [heads] at h
  | char t =>
    obtain ⟨-, -, rfl, -⟩ := Head.take.inj (List.mem_singleton.1 h)
    exact ⟨rfl, fun _ => rfl⟩
  | edge e =>
    unfold heads at h
    split at h <;> simp at h
  | seq a b iha ihb =>
    obtain ⟨ha, hb⟩ := Bool.and_eq_true_iff.1 hp
    obtain ⟨x, hx, hg⟩ := List.mem_flatMap.1 h
    cases x with
    | done g₁ => exact ihb hg hb
    | take m₁ t left₁ g₁ =>
      obtain ⟨rfl, rfl, rfl, rfl⟩ := Head.take.inj (List.mem_singleton.1 hg)
      refine ⟨?_, fun ht => ?_⟩
      · rw [tidy_append, (iha hx ha).1, tidy_tasksOf hb]
        rfl
      · rw [endsTight_append]
        have hb : b.tight = true := ht
        exact endsTight_tasksOf hb _ _
  | alt a b iha ihb =>
    obtain ⟨ha, hb⟩ := Bool.and_eq_true_iff.1 hp
    rcases mem_orElse h with h | h
    · exact (iha h ha).imp_right fun imp ht => imp (Bool.and_eq_true_iff.1 ht).1
    · exact (ihb h hb).imp_right fun imp ht => imp (Bool.and_eq_true_iff.1 ht).2
  | star greedy a ih =>
    obtain ⟨x, hx, hg⟩ := (mem_heads_star.1 h).resolve_left Head.noConfusion
    cases x with
    | done g₁ => simp [Head.append] at hg
    | take m₁ t left₁ g₁ =>
      obtain ⟨rfl, rfl, rfl, rfl⟩ := Head.take.inj hg
      have hl := (ih (mem_takes hx) (Bool.and_eq_true_iff.1 hp).2).1
      refine ⟨?_, fun ht => by simp [tight] at ht⟩
      simp only [tidy_append, tidy, hl, hp, Bool.and_self]
  | plus greedy a ih =>
    obtain ⟨ht, ha⟩ := Bool.and_eq_true_iff.1 hp
    obtain ⟨x, hx, hg⟩ := List.mem_map.1 h
    cases x with
    | done g₁ => simp [Head.append] at hg
    | take m₁ t left₁ g₁ =>
      obtain ⟨rfl, rfl, rfl, rfl⟩ := Head.take.inj hg
      obtain ⟨hl, he⟩ := ih hx ha
      refine ⟨?_, fun _ => ?_⟩
      · simp only [tidy_append, tidy, hl, he ht, ht, ha, Bool.and_self]
      · simp only [endsTight_append, endsTight, he ht]
  | group k a ih =>
    obtain ⟨x, hx, hg⟩ := List.mem_map.1 h
    cases x with
    | done g₁ => simp at hg
    | take m₁ t left₁ g₁ =>
      obtain ⟨rfl, rfl, rfl, rfl⟩ := Head.take.inj hg
      obtain ⟨hl, he⟩ := ih hx hp
      refine ⟨?_, fun ht => ?_⟩
      · simp only [tidy_append, tidy, hl, Bool.and_self]
      · simp only [endsTight_append, endsTight, he ht]

def Task.ways : Task → Stand → List Stand
  | run _ p, x => p.ways x
  | again _ greedy p, x => (star greedy p).ways x
  | leave n, x => [(x.1, x.2.leave n x.1.index)]

def waysOf : List Task → Stand → List Stand
  | [], x => [x]
  | t :: rest, x => (t.ways x).flatMap (waysOf rest)

theorem waysOf_append (xs ys : List Task) (x : Stand) :
    waysOf (xs ++ ys) x = (waysOf xs x).flatMap (waysOf ys) := by
  induction xs generalizing x with
  | nil => simp [waysOf]
  | cons t xs ih =>
    rw [List.cons_append, waysOf, waysOf, List.flatMap_assoc]
    exact List.flatMap_congr fun y _ => ih y

theorem waysOf_run (n : Nat) (p : Pattern) (x : Stand) : waysOf [.run n p] x = p.ways x :=
  List.flatMap_singleton' _

theorem waysOf_tasksOf (n : Nat) (p : Pattern) (x : Stand) : waysOf (tasksOf n p) x = p.ways x := by
  induction p generalizing n x with
  | empty => rfl
  | seq a b iha ihb =>
    rw [tasksOf, waysOf_append, iha, ways]
    exact List.flatMap_congr fun y _ => ihb _ y
  | char s | edge e | alt a b | star greedy a | plus greedy a | group k a => exact waysOf_run n _ x

theorem blind_waysOf (tasks : List Task) : Blind (waysOf tasks) := by
  induction tasks with
  | nil => intro s g g'; rfl
  | cons t rest ih =>
    intro s g g'
    apply ih.flatMap
    cases t with
    | run n p => exact blind_ways p s g g'
    | again n greedy p => exact blind_ways (star greedy p) s g g'
    | leave n => rfl

section Outcomes
variable {α : Type} {k : Stand → Option α} {spot : Spot}

def andThen (tasks : List Task) (k : Stand → Option α) (x : Stand) : Option α :=
  (waysOf tasks x).findSome? k

theorem Uniform.andThen (hk : Uniform k) (tasks : List Task) : Uniform (andThen tasks k) := by
  intro s g g'
  rw [Pattern.andThen, Pattern.andThen, isSome_findSome? hk, isSome_findSome? hk,
    blind_waysOf tasks s g g']

theorem andThen_nil : andThen [] k = k := by
  funext x
  simp [andThen, waysOf]

theorem andThen_append (xs ys : List Task) : andThen (xs ++ ys) k = andThen xs (andThen ys k) := by
  funext x
  rw [andThen, waysOf_append]
  exact findSome?_flatMap _ _ _

theorem andThen_cons (t : Task) (rest : List Task) (x : Stand) :
    andThen (t :: rest) k x = (t.ways x).findSome? (andThen rest k) :=
  findSome?_flatMap _ _ _

theorem andThen_tasksOf (n : Nat) (p : Pattern) : andThen (tasksOf n p) k = (p.pursue · k) := by
  funext x
  rw [andThen, waysOf_tasksOf, pursue]

def Head.pursue (spot : Spot) (k : Stand → Option α) : Head → Option α
  | done g => k (spot, g)
  | take _ s left g => (char s).pursue (spot, g) (andThen left k)

theorem pursue_take_append (n : Nat) (s : CharSet) (left tasks : List Task) (g : Groups) :
    (Head.take n s (left ++ tasks) g).pursue spot k =
      (Head.take n s left g).pursue spot (andThen tasks k) := by
  rw [Head.pursue, andThen_append, Head.pursue]

theorem pursue_append {h : Head} (hh : h.isDone = false) (tasks : List Task) :
    (h.append tasks).pursue spot k = h.pursue spot (andThen tasks k) := by
  cases h with
  | done g => simp [Head.isDone] at hh
  | take n s left g => exact pursue_take_append n s left tasks g

theorem findSome?_takes (hk : ∀ g, k (spot, g) = none) (hs : List Head) :
    (takes hs).findSome? (Head.pursue spot k) = hs.findSome? (Head.pursue spot k) := by
  induction hs with
  | nil => rfl
  | cons h hs ih =>
    cases h with
    | done g =>
      have nothing : Head.pursue spot k (.done g) = none := hk g
      rw [List.findSome?_cons, nothing]
      exact ih
    | take n s left g =>
      have kept : takes (.take n s left g :: hs) = .take n s left g :: takes hs := rfl
      rw [kept, List.findSome?_cons, List.findSome?_cons, ih]

theorem findSome?_orElse (hk : Uniform k) (hs others : List Head) :
    (orElse hs others).findSome? (Head.pursue spot k) =
      (hs.findSome? (Head.pursue spot k)).or (others.findSome? (Head.pursue spot k)) := by
  rw [orElse, List.findSome?_append]
  split
  · rename_i some_done
    cases first : hs.findSome? (Head.pursue spot k) with
    | some a => rfl
    | none =>
      obtain ⟨h, hh, is_done⟩ := List.any_eq_true.1 some_done
      have nothing := List.findSome?_eq_none_iff.1 first h hh
      cases h with
      | take n s left g => simp [Head.isDone] at is_done
      | done g =>
        have no_outcome : ∀ g', k (spot, g') = none := by
          intro g'
          have same := hk spot g' g
          rw [show k (spot, g) = none from nothing] at same
          simpa using same
        rw [Option.none_or, Option.none_or, findSome?_takes no_outcome]
  · rfl

theorem isDone_eq_false {n : Nat} {p : Pattern} {g : Groups} (hp : p.nullable = false) {h : Head}
    (hh : h ∈ heads spot n p g) : h.isDone = false := by
  cases h with
  | done g' => simp [nullable_of_done hh] at hp
  | take n s left g' => rfl

theorem takes_heads {n : Nat} {p : Pattern} {g : Groups} (hp : p.nullable = false) :
    takes (heads spot n p g) = heads spot n p g :=
  List.filter_eq_self.2 fun h hh => by rw [isDone_eq_false hp hh]; rfl

theorem findSome?_map_append {n : Nat} {p : Pattern} {g : Groups} (hp : p.nullable = false)
    (tasks : List Task) :
    ((heads spot n p g).map (·.append tasks)).findSome? (Head.pursue spot k) =
      (heads spot n p g).findSome? (Head.pursue spot (andThen tasks k)) := by
  rw [List.findSome?_map]
  exact findSome?_congr fun h hh => pursue_append (isDone_eq_false hp hh) tasks

theorem findSome?_heads (hk : Uniform k) {n : Nat} {p : Pattern} {g : Groups}
    (hp : p.steady = true) :
    (heads spot n p g).findSome? (Head.pursue spot k) = p.pursue (spot, g) k := by
  induction p generalizing n g k with
  | empty => simp [heads, Head.pursue, pursue_empty]
  | char s => simp [heads, Head.pursue, andThen_nil]
  | edge e =>
    rw [pursue_edge, heads]
    split <;> simp [Head.pursue]
  | seq a b iha ihb =>
    obtain ⟨ha, hb⟩ := Bool.and_eq_true_iff.1 hp
    rw [pursue_seq, ← iha (hk.pursue b) ha, heads, findSome?_flatMap]
    refine findSome?_congr fun h _ => ?_
    cases h with
    | done g₁ => exact ihb hk hb
    | take m s left g₁ =>
      rw [List.findSome?_singleton, pursue_take_append, andThen_tasksOf]
  | alt a b iha ihb =>
    obtain ⟨ha, hb⟩ := Bool.and_eq_true_iff.1 hp
    rw [heads, findSome?_orElse hk, iha hk ha, ihb hk hb, pursue_alt]
  | star greedy a ih =>
    obtain ⟨ht, ha⟩ := Bool.and_eq_true_iff.1 hp
    have hn := nullable_eq_false_of_tight ht
    have again : andThen [.run n (star greedy a)] k = ((star greedy a).pursue · k) :=
      andThen_tasksOf n (star greedy a)
    have more := ih (hk.pursue (star greedy a)) ha (n := 2 * n) (g := g)
    rw [← again, ← findSome?_map_append hn] at more
    rw [pursue_star hn, heads, takes_heads hn]
    cases greedy
    · simp only [Bool.false_eq_true, if_false, List.findSome?_cons, more, again, Head.pursue]
      cases k (spot, g) <;> rfl
    · simp only [if_true, List.findSome?_append, more, again, List.findSome?_singleton, Head.pursue]
  | plus greedy a ih =>
    obtain ⟨ht, ha⟩ := Bool.and_eq_true_iff.1 hp
    have hn := nullable_eq_false_of_tight ht
    have again : andThen [.again (2 * n) greedy a] k = ((star greedy a).pursue · k) :=
      andThen_tasksOf n (star greedy a)
    rw [pursue_plus hn, heads, findSome?_map_append hn, again, ih (hk.pursue _) ha]
  | group m a ih =>
    have hk' : Uniform fun y : Stand => k (y.1, y.2.leave m y.1.index) :=
      fun s g g' => hk s (g.leave m s.index) (g'.leave m s.index)
    rw [pursue_group, ← ih hk' hp, heads, List.findSome?_map]
    refine findSome?_congr fun h _ => ?_
    cases h with
    | done g₁ => rfl
    | take m s left g₁ =>
      refine (pursue_take_append _ _ _ _ _).trans (congrArg (Head.pursue spot · _) ?_)
      funext y
      simp [andThen, waysOf, Task.ways]

end Outcomes

end Snapshot.Pattern

import Snapshot.Proofs.Pattern.Steps
import Snapshot.Proofs.Pattern.Work

/-!
# The match is the preferred way

Following all threads at once finds what trying the ways one after another would find, if the
pattern is steady. What a thread leaves out is no loss. It has an outcome only if something
preferred to it has one, since groups do not decide where a pattern leads.
-/

namespace Snapshot.Pattern

section Outcomes
variable {α : Type} {k : Stand → Option α} {spot : Spot}

theorem tidy_of_headsOfTasks {seen : List (List Task)} {ok : Bool} {passed : List Nat}
    {tasks : List Task} (htidy : tidy ok tasks = true) {n : Nat} {s : CharSet} {left : List Task}
    {g g' : Groups} (h : .take n s left g' ∈ headsOfTasks spot seen passed tasks g) :
    tidy true left = true := by
  induction tasks generalizing ok passed g with
  | nil => simp [headsOfTasks] at h
  | cons t rest ih =>
    rcases exists_of_mem_headsOfTasks h with ⟨u, g₁, first, same⟩ | ⟨g₁, passed', -, later⟩
    · obtain ⟨rfl, rfl, rfl, rfl⟩ := Head.take.inj same
      change tidy true (u.left ++ rest) = true
      cases t with
      | run m p =>
        obtain ⟨hp, hrest⟩ := Bool.and_eq_true_iff.1 htidy
        obtain ⟨hl, he⟩ := tidy_left first hp
        rw [tidy_append, hl, Bool.true_and]
        cases ends : endsTight true u.left with
        | true => exact tidy_true hrest
        | false =>
          have loose : p.tight = false := by
            cases ht : p.tight with
            | false => rfl
            | true => simp [he ht] at ends
          rwa [loose] at hrest
      | again m greedy p =>
        simp only [tidy, Bool.and_eq_true] at htidy
        obtain ⟨⟨⟨rfl, ht⟩, hp⟩, hrest⟩ := htidy
        obtain ⟨x, hx, round⟩ :=
          List.mem_map.1 ((List.mem_cons.1 first).resolve_left Head.noConfusion)
        cases x with
        | done g₂ => cases round
        | take m₁ chars left₁ g₂ =>
          obtain ⟨-, -, rest_eq, -⟩ := Head.take.inj round
          obtain ⟨hl, he⟩ := tidy_left (mem_takes hx) hp
          rw [← rest_eq, List.append_assoc]
          simp only [tidy_append, tidy, hl, he ht, ht, hp, hrest, List.singleton_append,
            Bool.and_self]
      | leave m => exact Head.noConfusion (List.mem_singleton.1 first)
    · cases t with
      | run m p => exact ih (Bool.and_eq_true_iff.1 htidy).2 later
      | again m greedy p => exact ih (Bool.and_eq_true_iff.1 htidy).2 later
      | leave m => exact ih htidy later

def Dead (spot : Spot) (k : Stand → Option α) (tasks : List Task) : Prop :=
  ∀ g, andThen tasks k (spot, g) = none

theorem findSome?_headsOfTasks (hk : Uniform k) {seen : List (List Task)}
    (dead : ∀ tasks ∈ seen, Dead spot k tasks) {ok : Bool} {passed : List Nat} {tasks : List Task}
    (htidy : tidy ok tasks = true) (hpassed : passed = [] ∨ ok = false) (g : Groups) :
    (headsOfTasks spot seen passed tasks g).findSome? (Head.pursue spot k) =
      andThen tasks k (spot, g) := by
  induction tasks generalizing ok passed g with
  | nil => simp [headsOfTasks, Head.pursue, andThen, waysOf]
  | cons t rest ih =>
    unfold headsOfTasks
    split
    · rename_i known
      exact (dead _ (List.contains_iff_mem.1 known) g).symm
    rw [andThen_cons]
    cases t with
    | run n p =>
      obtain ⟨hp, hrest⟩ := Bool.and_eq_true_iff.1 htidy
      refine Eq.trans ?_ (findSome?_heads (hk.andThen rest) hp (n := n))
      rw [findSome?_flatMap]
      refine findSome?_congr fun h hh => ?_
      cases h with
      | done g₁ =>
        have loose : p.tight = false := by
          cases ht : p.tight with
          | false => rfl
          | true =>
            have hn := nullable_eq_false_of_tight ht
            simp [nullable_of_done hh] at hn
        exact ih hrest (.inr loose) g₁
      | take m s left g₁ =>
        rw [List.findSome?_singleton, pursue_take_append]
    | again n greedy p =>
      simp only [tidy, Bool.and_eq_true] at htidy
      obtain ⟨⟨⟨rfl, ht⟩, hp⟩, hrest⟩ := htidy
      obtain rfl : passed = [] := by simpa using hpassed
      have hn := nullable_eq_false_of_tight ht
      have round : andThen (.again n greedy p :: rest) k =
          fun y => (star greedy p).pursue y (andThen rest k) :=
        funext fun y => andThen_cons _ _ y
      have fresh : (takes (heads spot n p g)).filter (fun h => !h.part?.any [].contains) =
          heads spot n p g := by
        rw [takes_heads hn]
        exact List.filter_eq_self.2 fun h _ => by cases h.part? <;> rfl
      have more : ((heads spot n p g).map (·.append (.again n greedy p :: rest))).findSome?
          (Head.pursue spot k) =
            p.pursue (spot, g) fun y => (star greedy p).pursue y (andThen rest k) := by
        rw [findSome?_map_append hn, round]
        exact findSome?_heads ((hk.andThen rest).pursue _) hp
      have out := ih hrest hpassed g
      refine Eq.trans ?_ (pursue_star hn greedy (spot, g)).symm
      simp only [fresh]
      cases greedy
      · simp only [Bool.false_eq_true, if_false, List.findSome?_append, more, out]
      · simp only [if_true, List.findSome?_append, more, out]
    | leave n =>
      refine (ih htidy hpassed _).trans ?_
      simp [Task.ways]

theorem exists_of_passes {p : Pattern} (h : p.passes spot = true) (g : Groups) :
    ∃ g', (spot, g') ∈ p.ways (spot, g) := by
  induction p generalizing g with
  | empty => exact ⟨g, List.mem_singleton_self _⟩
  | char s => simp [passes] at h
  | edge e => exact ⟨g, by simp only [ways, show e.holds spot.before spot.after = true from h,
      if_true, List.mem_singleton_self]⟩
  | seq a b iha ihb =>
    obtain ⟨ha, hb⟩ := Bool.and_eq_true_iff.1 h
    obtain ⟨g₁, h₁⟩ := iha ha g
    obtain ⟨g₂, h₂⟩ := ihb hb g₁
    exact ⟨g₂, List.mem_flatMap.2 ⟨_, h₁, h₂⟩⟩
  | alt a b iha ihb =>
    rcases Bool.or_eq_true_iff.1 h with h | h
    · obtain ⟨g₁, h₁⟩ := iha h g
      exact ⟨g₁, List.mem_append_left _ h₁⟩
    · obtain ⟨g₁, h₁⟩ := ihb h g
      exact ⟨g₁, List.mem_append_right _ h₁⟩
  | star greedy a ih => exact ⟨g, mem_ways_star.2 (.inl rfl)⟩
  | plus greedy a ih =>
    obtain ⟨g₁, h₁⟩ := ih h g
    exact ⟨g₁, mem_ways_plus.2 ⟨_, h₁, by rw [if_neg (Nat.lt_irrefl _)]⟩⟩
  | group m a ih =>
    obtain ⟨g₁, h₁⟩ := ih h (g.enter m spot.index)
    exact ⟨_, List.mem_map.2 ⟨_, h₁, rfl⟩⟩

theorem exists_of_task_passes {t : Task} (h : t.passes spot = true) (g : Groups) :
    ∃ g', (spot, g') ∈ t.ways (spot, g) := by
  cases t with
  | run n p => exact exists_of_passes h g
  | again n greedy p => exact exists_of_passes (p := star greedy p) rfl g
  | leave n => exact ⟨_, List.mem_singleton_self _⟩

/-- A thread without an outcome comes to no work that has one. -/
theorem dead_of_mem_comesTo (hk : Uniform k) {seen : List (List Task)} {tasks : List Task}
    {g : Groups} (none_here : andThen tasks k (spot, g) = none) {l : List Task}
    (hl : l ∈ comesTo spot seen tasks) : Dead spot k l := by
  induction tasks generalizing g with
  | nil => simp [comesTo] at hl
  | cons t rest ih =>
    unfold comesTo at hl
    split at hl
    · simp at hl
    rcases List.mem_cons.1 hl with rfl | hl
    · intro g'
      have same := hk.andThen (t :: rest) spot g' g
      rw [none_here] at same
      simpa using same
    · split at hl
      · rename_i passes
        obtain ⟨g', hg'⟩ := exists_of_task_passes passes g
        rw [andThen_cons] at none_here
        exact ih (List.findSome?_eq_none_iff.1 none_here _ hg') hl
      · simp at hl

theorem findSome?_headsOfThreads (hk : Uniform k) {threads : List Thread}
    (htidy : ∀ t ∈ threads, tidy true t.tasks = true) {seen : List (List Task)}
    (dead : ∀ tasks ∈ seen, Dead spot k tasks) :
    (headsOfThreads spot seen threads).findSome? (Head.pursue spot k) =
      threads.findSome? fun t => andThen t.tasks k (spot, t.groups) := by
  induction threads generalizing seen with
  | nil => rfl
  | cons t ts ih =>
    have here := findSome?_headsOfTasks hk dead (htidy t List.mem_cons_self) (.inl rfl) t.groups
    rw [headsOfThreads, List.findSome?_append, List.findSome?_cons, here]
    cases outcome : andThen t.tasks k (spot, t.groups) with
    | some a => rfl
    | none =>
      apply ih (fun t ht => htidy t (List.mem_cons_of_mem _ ht))
      intro l hl
      rcases List.mem_append.1 hl with hl | hl
      · exact dead_of_mem_comesTo hk outcome hl
      · exact dead l hl

theorem tidy_of_headsOfThreads {threads : List Thread} {seen : List (List Task)}
    (htidy : ∀ t ∈ threads, tidy true t.tasks = true) {n : Nat} {s : CharSet} {left : List Task}
    {g : Groups} (h : .take n s left g ∈ headsOfThreads spot seen threads) :
    tidy true left = true := by
  obtain ⟨t, ht, seen', h⟩ := exists_of_mem_headsOfThreads h
  exact tidy_of_headsOfTasks (htidy t ht) h

theorem mem_of_mem_advance {c : Char} {hs : List Head} {t : Thread} (h : t ∈ advance c hs) :
    ∃ n s, s.has c = true ∧ .take n s t.tasks t.groups ∈ hs := by
  induction hs with
  | nil => simp [advance] at h
  | cons x hs ih =>
    cases x with
    | done g => simp [advance] at h
    | take n s left g =>
      simp only [advance] at h
      split at h
      · rename_i has
        rcases List.mem_cons.1 h with rfl | h
        · exact ⟨n, s, has, List.mem_cons_self⟩
        · obtain ⟨n, s, has, h⟩ := ih h
          exact ⟨n, s, has, List.mem_cons_of_mem _ h⟩
      · obtain ⟨n, s, has, h⟩ := ih h
        exact ⟨n, s, has, List.mem_cons_of_mem _ h⟩

end Outcomes

theorem findSome?_advance {before : Option Char} {c : Char} {rest : List Char} {index : Nat}
    (hs : List Head) :
    hs.findSome? (Head.pursue ⟨before, c :: rest, index⟩ some) =
      ((advance c hs).findSome? fun t =>
          andThen t.tasks some (⟨some c, rest, index + 1⟩, t.groups)).or
        ((firstDone hs).map fun g => (⟨before, c :: rest, index⟩, g)) := by
  induction hs with
  | nil => rfl
  | cons h hs ih =>
    cases h with
    | done g => rfl
    | take n s left g =>
      have here : Head.pursue ⟨before, c :: rest, index⟩ some (.take n s left g) =
          if s.has c then andThen left some (⟨some c, rest, index + 1⟩, g) else none :=
        pursue_char s _
      rw [List.findSome?_cons, here, ih, advance, firstDone]
      cases s.has c
      · rfl
      · simp only [if_true, List.findSome?_cons]
        cases andThen left some (⟨some c, rest, index + 1⟩, g) <;> rfl

theorem findSome?_at_end {before : Option Char} {index : Nat} (hs : List Head) :
    hs.findSome? (Head.pursue ⟨before, [], index⟩ some) =
      (firstDone hs).map fun g => (⟨before, [], index⟩, g) := by
  induction hs with
  | nil => rfl
  | cons h hs ih =>
    cases h with
    | done g => rfl
    | take n s left g =>
      have here : Head.pursue ⟨before, [], index⟩ some (.take n s left g) = none :=
        pursue_char s _
      rw [List.findSome?_cons, here]
      exact ih

theorem uniform_some : Uniform (some : Stand → Option Stand) := fun _ _ _ => rfl

def Match.ofStand (start : Nat) (x : Stand) : Match := ⟨⟨start, x.1.index⟩, x.2⟩

theorem race_eq {start : Nat} {after : List Char} {before : Option Char} {index : Nat}
    {threads : List Thread} (htidy : ∀ t ∈ threads, tidy true t.tasks = true)
    (best : Option Match) :
    race start after before index threads best =
      ((threads.findSome? fun t => andThen t.tasks some (⟨before, after, index⟩, t.groups)).map
        (Match.ofStand start)).or best := by
  induction after generalizing before index threads best with
  | nil =>
    have outcome : (headsOfThreads ⟨before, [], index⟩ [] threads).findSome? _ = _ :=
      findSome?_headsOfThreads uniform_some htidy fun _ h => absurd h List.not_mem_nil
    rw [← outcome, findSome?_at_end]
    simp only [race]
    cases firstDone (headsOfThreads ⟨before, [], index⟩ [] threads) <;> rfl
  | cons c rest ih =>
    have outcome : (headsOfThreads ⟨before, c :: rest, index⟩ [] threads).findSome? _ = _ :=
      findSome?_headsOfThreads uniform_some htidy fun _ h => absurd h List.not_mem_nil
    rw [← outcome, findSome?_advance, race]
    generalize hhs : headsOfThreads ⟨before, c :: rest, index⟩ [] threads = hs
    cases hadvance : advance c hs with
    | nil =>
      dsimp only
      cases firstDone hs <;> simp [Match.ofStand]
    | cons t ts =>
      have still_tidy : ∀ u ∈ t :: ts, tidy true u.tasks = true := by
        intro u hu
        obtain ⟨n, s, -, taken⟩ := mem_of_mem_advance (hadvance ▸ hu)
        exact tidy_of_headsOfThreads htidy (hhs ▸ taken)
      dsimp only
      rw [ih still_tidy]
      generalize (t :: ts).findSome? _ = further
      cases further with
      | some x => rfl
      | none => cases firstDone hs <;> simp [Match.ofStand]

/-- The match of a steady pattern is its preferred way. -/
theorem matchAt_eq_pursue {p : Pattern} (hp : p.steady = true) (spot : Spot) :
    p.matchAt spot = (p.pursue (spot, {}) some).map (Match.ofStand spot.index) := by
  have htidy : ∀ t ∈ [Thread.mk [.run 1 p] {}], tidy true t.tasks = true := by
    intro t ht
    obtain rfl := List.mem_singleton.1 ht
    simp [tidy, hp]
  rw [matchAt_eq_race, race_eq htidy, Option.or_none, List.findSome?_singleton, andThen, waysOf_run]
  rfl

end Snapshot.Pattern

import Snapshot.Pattern.Match

/-!
# Where matches begin

A match is looked for only before a text that the pattern may start with. Nothing is lost by that:
`matchAt_eq_race` says that the threads would all stop at once.
-/

namespace Snapshot.Pattern

theorem mem_takes {h : Head} {hs : List Head} : h ∈ takes hs → h ∈ hs := fun m =>
  (List.mem_filter.1 m).1

theorem mem_orElse {h : Head} {hs others : List Head} (m : h ∈ orElse hs others) :
    h ∈ hs ∨ h ∈ others := by
  rcases List.mem_append.1 m with m | m
  · exact .inl m
  · split at m
    · exact .inr (mem_takes m)
    · exact .inr m

theorem mem_heads_star {spot : Spot} {n : Nat} {greedy : Bool} {a : Pattern} {g : Groups}
    {h : Head} : h ∈ heads spot n (star greedy a) g ↔ h = .done g ∨
      ∃ x ∈ takes (heads spot (2 * n) a g), x.append [.run n (star greedy a)] = h := by
  cases greedy <;> simp [heads, or_comm]

theorem nullable_of_done {spot : Spot} {n : Nat} {p : Pattern} {g g' : Groups}
    (h : .done g' ∈ heads spot n p g) : p.nullable = true := by
  induction p generalizing n g g' with
  | empty => rfl
  | char s => simp [heads] at h
  | edge e => rfl
  | seq a b iha ihb =>
    obtain ⟨x, hx, hg⟩ := List.mem_flatMap.1 h
    cases x with
    | done g₁ => simp [nullable, iha hx, ihb hg]
    | take m s left g₁ => simp at hg
  | alt a b iha ihb =>
    rcases mem_orElse h with h | h
    · simp [nullable, iha h]
    · simp [nullable, ihb h]
  | star greedy a => rfl
  | plus greedy a ih =>
    obtain ⟨x, hx, hg⟩ := List.mem_map.1 h
    cases x with
    | done g₁ => exact ih hx
    | take m s left g₁ => simp [Head.append] at hg
  | group k a ih =>
    obtain ⟨x, hx, hg⟩ := List.mem_map.1 h
    cases x with
    | done g₁ => exact ih hx
    | take m s left g₁ => simp at hg

theorem first_of_take {spot : Spot} {n m : Nat} {p : Pattern} {g g' : Groups} {s : CharSet}
    {left : List Task} {c : Char} (h : .take m s left g' ∈ heads spot n p g)
    (hc : s.has c = true) : p.first.has c = true := by
  induction p generalizing n g g' left with
  | empty => simp [heads] at h
  | char t =>
    obtain ⟨-, rfl, -⟩ : m = n ∧ s = t ∧ _ := by simpa [heads] using h
    exact hc
  | edge e =>
    unfold heads at h
    split at h <;> simp at h
  | seq a b iha ihb =>
    obtain ⟨x, hx, hg⟩ := List.mem_flatMap.1 h
    cases x with
    | done g₁ => simp [first, nullable_of_done hx, CharSet.has, ihb hg]
    | take m₁ t left₁ g₁ =>
      obtain ⟨rfl, rfl, -⟩ : m = m₁ ∧ s = t ∧ _ := by simpa using hg
      unfold first
      split
      · simp [CharSet.has, iha hx]
      · exact iha hx
  | alt a b iha ihb =>
    rcases mem_orElse h with h | h
    · simp [first, CharSet.has, iha h]
    · simp [first, CharSet.has, ihb h]
  | star greedy a ih =>
    obtain ⟨x, hx, hg⟩ := (mem_heads_star.1 h).resolve_left Head.noConfusion
    cases x with
    | done g₁ => simp [Head.append] at hg
    | take m₁ t left₁ g₁ =>
      obtain ⟨rfl, rfl, -⟩ : m₁ = m ∧ t = s ∧ _ := by simpa [Head.append] using hg
      exact ih (mem_takes hx)
  | plus greedy a ih =>
    obtain ⟨x, hx, hg⟩ := List.mem_map.1 h
    cases x with
    | done g₁ => simp [Head.append] at hg
    | take m₁ t left₁ g₁ =>
      obtain ⟨rfl, rfl, -⟩ : m₁ = m ∧ t = s ∧ _ := by simpa [Head.append] using hg
      exact ih hx
  | group k a ih =>
    obtain ⟨x, hx, hg⟩ := List.mem_map.1 h
    cases x with
    | done g₁ => simp at hg
    | take m₁ t left₁ g₁ =>
      obtain ⟨rfl, rfl, -⟩ : m₁ = m ∧ t = s ∧ _ := by simpa using hg
      exact ih hx

theorem firstDone_eq_none {hs : List Head} (h : ∀ g, .done g ∉ hs) : firstDone hs = none := by
  induction hs with
  | nil => rfl
  | cons x hs ih =>
    cases x with
    | done g => exact absurd List.mem_cons_self (h g)
    | take m s left g => exact ih fun g hg => h g (List.mem_cons_of_mem _ hg)

theorem advance_eq_nil {c : Char} {hs : List Head}
    (h : ∀ m s left g, .take m s left g ∈ hs → s.has c = false) : advance c hs = [] := by
  induction hs with
  | nil => rfl
  | cons x hs ih =>
    cases x with
    | done g => rfl
    | take m s left g =>
      simp only [advance, h m s left g List.mem_cons_self, Bool.false_eq_true, if_false]
      exact ih fun m s left g hx => h m s left g (List.mem_cons_of_mem _ hx)

/-- Where a match may not begin, none does. -/
theorem matchAt_eq_race (p : Pattern) (spot : Spot) :
    p.matchAt spot =
      race spot.index spot.after spot.before spot.index [⟨[.run 1 p], {}⟩] none := by
  unfold matchAt
  split
  · rfl
  rename_i no
  obtain ⟨hn, hf⟩ : p.nullable = false ∧ spot.after.head?.any p.first.has = false := by
    simpa [mayStart] using no
  obtain ⟨before, after, index⟩ := spot
  generalize ha : [Thread.mk [.run 1 p] {}] = threads
  have member {x : Head} (hx : x ∈ headsOfThreads ⟨before, after, index⟩ [] threads) :
      ∃ m s left g, x = .take m s left g ∧
        ∃ left', .take m s left' g ∈ heads ⟨before, after, index⟩ 1 p {} := by
    subst ha
    simp only [headsOfThreads, headsOfTasks, List.contains_nil, Bool.false_eq_true, if_false,
      List.append_nil] at hx
    obtain ⟨y, hy, hx⟩ := List.mem_flatMap.1 hx
    cases y with
    | done g => simp [nullable_of_done hy] at hn
    | take m s left g => exact ⟨m, s, left, g, by simpa using hx, left, hy⟩
  have none_done := firstDone_eq_none fun g hg => by
    obtain ⟨m, s, left, g', hx, -⟩ := member hg
    exact Head.noConfusion hx
  unfold race
  simp only [none_done]
  cases after with
  | nil => rfl
  | cons c rest =>
    have stuck := advance_eq_nil (c := c) fun m s left g hx => by
      obtain ⟨m', s', _, _, hx, left', hs⟩ := member hx
      obtain ⟨-, rfl, -⟩ : m = m' ∧ s = s' ∧ _ := by simpa using hx
      cases hc : s.has c with
      | false => rfl
      | true => simp [first_of_take hs hc] at hf
    simp [stuck]

end Snapshot.Pattern

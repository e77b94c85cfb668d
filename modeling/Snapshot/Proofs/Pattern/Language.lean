import Mathlib.Logic.Relation
import Snapshot.Proofs.Pattern.Race

/-!
# What a pattern matches

A pattern relates two places of a text if it can match what stands between them. Preference has no
part in this, nor have groups, and any round of a loop may be empty. The ways of a pattern lead just
to the places that it matches up to, and so do its heads. The heads of threads lead to all of them
too, whatever is cut.
-/

namespace Snapshot.Pattern

def Matches : Pattern → Spot → Spot → Prop
  | empty, x, y => y = x
  | char s, x, y => x.after.head?.any s.has = true ∧ y = x.next
  | edge e, x, y => e.holds x.before x.after = true ∧ y = x
  | seq a b, x, z => ∃ y, a.Matches x y ∧ b.Matches y z
  | alt a b, x, y => a.Matches x y ∨ b.Matches x y
  | star _ a, x, y => Relation.ReflTransGen a.Matches x y
  | plus _ a, x, y => Relation.TransGen a.Matches x y
  | group _ a, x, y => a.Matches x y

def Task.Matches : Task → Spot → Spot → Prop
  | run _ p, x, y => p.Matches x y
  | again _ _ p, x, y => Relation.ReflTransGen p.Matches x y
  | leave _, x, y => y = x

def Reaches : List Task → Spot → Spot → Prop
  | [], x, y => y = x
  | t :: rest, x, z => ∃ y, t.Matches x y ∧ Reaches rest y z

def Step.Reaches (s : Step) (x y : Spot) : Prop :=
  x.after.head?.any s.chars.has = true ∧ Pattern.Reaches s.left x.next y

def Head.Reaches : Head → Spot → Spot → Prop
  | done _, x, y => y = x
  | take n s left _, x, y => (Step.mk n s left).Reaches x y

theorem reaches_append {xs ys : List Task} {x z : Spot} :
    Reaches (xs ++ ys) x z ↔ ∃ y, Reaches xs x y ∧ Reaches ys y z := by
  induction xs generalizing x with
  | nil => simp [Reaches]
  | cons t xs ih =>
    simp only [List.cons_append, Reaches, ih]
    constructor
    · rintro ⟨u, first, y, further, last⟩
      exact ⟨y, ⟨u, first, further⟩, last⟩
    · rintro ⟨y, ⟨u, first, further⟩, last⟩
      exact ⟨u, first, y, further, last⟩

theorem reaches_singleton {t : Task} {x y : Spot} : Reaches [t] x y ↔ t.Matches x y := by
  simp [Reaches]

theorem reaches_tasksOf {n : Nat} {p : Pattern} {x y : Spot} :
    Reaches (tasksOf n p) x y ↔ p.Matches x y := by
  induction p generalizing n x y with
  | empty => rfl
  | seq a b iha ihb => simp only [tasksOf, reaches_append, iha, ihb, Matches]
  | char s | edge e | alt a b | star greedy a | plus greedy a | group k a =>
    exact reaches_singleton

theorem Step.reaches_append {s : Step} {tasks : List Task} {x z : Spot} :
    (s.append tasks).Reaches x z ↔ ∃ y, s.Reaches x y ∧ Pattern.Reaches tasks y z := by
  simp only [Step.Reaches, Step.append, Pattern.reaches_append]
  constructor
  · rintro ⟨first, y, further, last⟩
    exact ⟨y, ⟨first, further⟩, last⟩
  · rintro ⟨y, ⟨first, further⟩, last⟩
    exact ⟨first, y, further, last⟩

theorem Head.of_reaches_append {h : Head} {tasks : List Task} {x z : Spot}
    (reaches : (h.append tasks).Reaches x z) :
    h.Reaches x z ∨ ∃ y, h.Reaches x y ∧ Pattern.Reaches tasks y z := by
  cases h with
  | done g => exact .inl reaches
  | take n s left g => exact .inr (Step.reaches_append (s := ⟨n, s, left⟩).1 reaches)

theorem matches_of_mem_ways {p : Pattern} {x y : Stand} (hy : y ∈ p.ways x) :
    p.Matches x.1 y.1 := by
  induction p generalizing x y with
  | empty => exact congrArg Prod.fst (List.mem_singleton.1 hy)
  | char s =>
    simp only [ways] at hy
    split at hy
    · rename_i taken
      exact ⟨taken, congrArg Prod.fst (List.mem_singleton.1 hy)⟩
    · cases hy
  | edge e =>
    simp only [ways] at hy
    split at hy
    · rename_i holds
      exact ⟨holds, congrArg Prod.fst (List.mem_singleton.1 hy)⟩
    · cases hy
  | seq a b iha ihb =>
    obtain ⟨z, hz, hy⟩ := List.mem_flatMap.1 hy
    exact ⟨z.1, iha hz, ihb hy⟩
  | alt a b iha ihb => exact (List.mem_append.1 hy).imp iha ihb
  | star greedy a ih =>
    exact kept_of_mem_rounds (I := fun z => Relation.ReflTransGen a.Matches x.1 z.1)
      (fun z hz y hy => hz.tail (ih hy)) .refl hy
  | plus greedy a ih =>
    obtain ⟨z, hz, hy⟩ := List.mem_flatMap.1 hy
    split at hy
    · exact kept_of_mem_rounds (I := fun y => Relation.TransGen a.Matches x.1 y.1)
        (fun z hz y hy => hz.tail (ih hy)) (.single (ih hz)) hy
    · exact List.mem_singleton.1 hy ▸ .single (ih hz)
  | group k a ih =>
    obtain ⟨z, hz, rfl⟩ := List.mem_map.1 hy
    have inner := ih hz
    exact inner

theorem eq_or_shorter {p : Pattern} {x y : Stand} (hy : y ∈ p.ways x) :
    y.1 = x.1 ∨ y.1.after.length < x.1.after.length := by
  obtain ⟨m, le, same⟩ := exists_skip_of_mem_ways hy
  cases m with
  | zero => exact .inl same
  | succ m =>
    refine .inr ?_
    rw [same, Spot.after_skip, List.length_drop]
    omega

theorem exists_way_star (greedy : Bool) {a : Pattern}
    (each : ∀ {x y : Spot}, a.Matches x y → ∀ g, ∃ g', (y, g') ∈ a.ways (x, g)) {x y : Spot}
    (rounds : Relation.ReflTransGen a.Matches x y) (g : Groups) :
    ∃ g', (y, g') ∈ (star greedy a).ways (x, g) := by
  induction rounds using Relation.ReflTransGen.head_induction_on generalizing g with
  | refl => exact ⟨g, mem_ways_star.2 (.inl rfl)⟩
  | head first _ ih =>
    obtain ⟨g₁, h₁⟩ := each first g
    rcases eq_or_shorter h₁ with same | shorter
    · obtain rfl : _ = _ := same
      exact ih g
    · obtain ⟨g₂, h₂⟩ := ih g₁
      exact ⟨g₂, mem_ways_star.2 (.inr ⟨_, h₁, shorter, h₂⟩)⟩

theorem exists_way {p : Pattern} {x y : Spot} (matched : p.Matches x y) (g : Groups) :
    ∃ g', (y, g') ∈ p.ways (x, g) := by
  induction p generalizing x y g with
  | empty => exact ⟨g, List.mem_singleton.2 (congrArg (·, g) matched)⟩
  | char s =>
    obtain ⟨taken, rfl⟩ := matched
    exact ⟨g, by rw [ways, if_pos taken]; exact List.mem_singleton_self _⟩
  | edge e =>
    obtain ⟨holds, rfl⟩ := matched
    exact ⟨g, by rw [ways, if_pos holds]; exact List.mem_singleton_self _⟩
  | seq a b iha ihb =>
    obtain ⟨z, first, further⟩ := matched
    obtain ⟨g₁, h₁⟩ := iha first g
    obtain ⟨g₂, h₂⟩ := ihb further g₁
    exact ⟨g₂, List.mem_flatMap.2 ⟨_, h₁, h₂⟩⟩
  | alt a b iha ihb =>
    rcases matched with matched | matched
    · exact (iha matched g).imp fun _ => List.mem_append_left _
    · exact (ihb matched g).imp fun _ => List.mem_append_right _
  | star greedy a ih => exact exists_way_star greedy (fun h g => ih h g) matched g
  | plus greedy a ih =>
    obtain ⟨z, first, rounds⟩ := Relation.TransGen.head'_iff.1 matched
    obtain ⟨g₁, h₁⟩ := ih first g
    rcases eq_or_shorter h₁ with same | shorter
    · -- The first round takes nothing, so it is the last one, or a later round can be the first.
      obtain rfl : z = x := same
      obtain ⟨g₂, h₂⟩ := exists_way_star greedy (fun h g => ih h g) rounds g
      rcases mem_ways_star.1 h₂ with same | ⟨w, hw, shorter, further⟩
      · obtain ⟨rfl, -⟩ := Prod.mk.inj same
        exact ⟨g₁, mem_ways_plus.2 ⟨_, h₁, by rw [if_neg (Nat.lt_irrefl _)]⟩⟩
      · exact ⟨g₂, mem_ways_plus.2 ⟨w, hw, by rwa [if_pos shorter]⟩⟩
    · obtain ⟨g₂, h₂⟩ := exists_way_star greedy (fun h g => ih h g) rounds g₁
      exact ⟨g₂, mem_ways_plus.2 ⟨_, h₁, by rwa [if_pos shorter]⟩⟩
  | group k a ih =>
    obtain ⟨g₁, h₁⟩ := ih matched (g.enter k x.index)
    exact ⟨_, List.mem_map_of_mem h₁⟩

theorem matches_of_head {x : Spot} {n : Nat} {p : Pattern} {g : Groups} {h : Head}
    (hh : h ∈ heads x n p g) {z : Spot} (reaches : h.Reaches x z) : p.Matches x z := by
  induction p generalizing n g h z with
  | empty =>
    rw [List.mem_singleton.1 hh] at reaches
    exact reaches
  | char s =>
    rw [List.mem_singleton.1 hh] at reaches
    exact reaches
  | edge e =>
    unfold heads at hh
    split at hh
    · rename_i holds
      rw [List.mem_singleton.1 hh] at reaches
      exact ⟨holds, reaches⟩
    · cases hh
  | seq a b iha ihb =>
    obtain ⟨h', hh', hh⟩ := List.mem_flatMap.1 hh
    cases h' with
    | done g' => exact ⟨x, iha hh' rfl, ihb hh reaches⟩
    | take m s left g' =>
      rw [List.mem_singleton.1 hh] at reaches
      obtain ⟨y, first, further⟩ := Step.reaches_append (s := ⟨m, s, left⟩).1 reaches
      exact ⟨y, iha hh' first, reaches_tasksOf.1 further⟩
  | alt a b iha ihb =>
    exact (mem_orElse hh).imp (fun hh => iha hh reaches) fun hh => ihb hh reaches
  | star greedy a ih =>
    rcases mem_heads_star.1 hh with rfl | ⟨h', hh', rfl⟩
    · exact reaches ▸ .refl
    · rcases Head.of_reaches_append reaches with first | ⟨y, first, further⟩
      · exact .single (ih (mem_takes hh') first)
      · exact .head (ih (mem_takes hh') first) (reaches_singleton.1 further)
  | plus greedy a ih =>
    obtain ⟨h', hh', rfl⟩ := List.mem_map.1 hh
    rcases Head.of_reaches_append reaches with first | ⟨y, first, further⟩
    · exact .single (ih hh' first)
    · exact .head' (ih hh' first) (reaches_singleton.1 further)
  | group k a ih =>
    obtain ⟨h', hh', rfl⟩ := List.mem_map.1 hh
    cases h' with
    | done g' => exact ih hh' reaches
    | take m s left g' =>
      obtain ⟨y, first, further⟩ := Step.reaches_append (s := ⟨m, s, left⟩).1 reaches
      obtain rfl : z = y := reaches_singleton.1 further
      exact ih hh' first

theorem exists_round {a : Pattern} {x : Spot} {hs : List Head}
    (complete : ∀ y, a.Matches x y → ∃ h ∈ hs, h.Reaches x y) {z : Spot}
    (rounds : Relation.ReflTransGen a.Matches x z) :
    z = x ∨ ∃ (s : Step) (g : Groups), s.head g ∈ hs ∧
      ∃ y, s.Reaches x y ∧ Relation.ReflTransGen a.Matches y z := by
  induction rounds with
  | refl => exact .inl rfl
  | tail _ last ih =>
    rcases ih with rfl | ⟨s, g, hs, y, first, further⟩
    · obtain ⟨h, hh, reaches⟩ := complete _ last
      cases h with
      | done g => exact .inl reaches
      | take m s left g => exact .inr ⟨⟨m, s, left⟩, g, hh, _, reaches, .refl⟩
    · exact .inr ⟨s, g, hs, y, first, further.tail last⟩

theorem exists_of_orElse {hs others : List Head} {x y : Spot}
    (some_head : (∃ h ∈ hs, h.Reaches x y) ∨ ∃ h ∈ others, h.Reaches x y) :
    ∃ h ∈ orElse hs others, h.Reaches x y := by
  rcases some_head with ⟨h, hh, reaches⟩ | ⟨h, hh, reaches⟩
  · exact ⟨h, List.mem_append_left _ hh, reaches⟩
  · cases done : hs.any Head.isDone with
    | false => exact ⟨h, List.mem_append_right _ (by rwa [if_neg (by simp [done])]), reaches⟩
    | true =>
      cases h with
      | done g =>
        obtain ⟨h', hh', is_done⟩ := List.any_eq_true.1 done
        cases h' with
        | done g' => exact ⟨_, List.mem_append_left _ hh', reaches⟩
        | take m s left g' => cases is_done
      | take m s left g =>
        refine ⟨_, List.mem_append_right _ ?_, reaches⟩
        rw [if_pos done]
        exact List.mem_filter.2 ⟨hh, rfl⟩

theorem exists_head {x : Spot} {n : Nat} {p : Pattern} {g : Groups} {z : Spot}
    (matched : p.Matches x z) : ∃ h ∈ heads x n p g, h.Reaches x z := by
  induction p generalizing n g z with
  | empty => exact ⟨_, List.mem_singleton_self _, matched⟩
  | char s => exact ⟨_, List.mem_singleton_self _, matched⟩
  | edge e =>
    refine ⟨.done g, ?_, matched.2⟩
    rw [heads, if_pos matched.1]
    exact List.mem_singleton_self _
  | seq a b iha ihb =>
    obtain ⟨y, first, further⟩ := matched
    obtain ⟨h, hh, reaches⟩ := iha first (n := 2 * n) (g := g)
    cases h with
    | done g' =>
      obtain rfl : y = x := reaches
      obtain ⟨h', hh', reaches'⟩ := ihb further (n := 2 * n + 1) (g := g')
      exact ⟨h', List.mem_flatMap.2 ⟨_, hh, hh'⟩, reaches'⟩
    | take m s left g' =>
      refine ⟨_, List.mem_flatMap.2 ⟨_, hh, List.mem_singleton_self _⟩, ?_⟩
      exact Step.reaches_append (s := ⟨m, s, left⟩).2 ⟨y, reaches, reaches_tasksOf.2 further⟩
  | alt a b iha ihb => exact exists_of_orElse (matched.imp iha ihb)
  | star greedy a ih =>
    rcases exists_round (fun y first => ih first) matched with rfl | ⟨s, g', hs, y, first, further⟩
    · exact ⟨.done g, mem_heads_star.2 (.inl rfl), rfl⟩
    · refine ⟨_, mem_heads_star.2 (.inr ⟨_, List.mem_filter.2 ⟨hs, rfl⟩, rfl⟩), ?_⟩
      exact Step.reaches_append.2 ⟨y, first, reaches_singleton.2 further⟩
  | plus greedy a ih =>
    obtain ⟨y, first, further⟩ := Relation.TransGen.head'_iff.1 matched
    obtain ⟨h, hh, reaches⟩ := ih first (n := 2 * n) (g := g)
    cases h with
    | done g' =>
      obtain rfl : y = x := reaches
      rcases exists_round (fun y first => ih first (n := 2 * n) (g := g)) further with
        rfl | ⟨s, g'', hs, u, first, further⟩
      · exact ⟨_, List.mem_map_of_mem hh, rfl⟩
      · refine ⟨_, List.mem_map_of_mem hs, ?_⟩
        exact Step.reaches_append.2 ⟨u, first, reaches_singleton.2 further⟩
    | take m s left g' =>
      refine ⟨_, List.mem_map_of_mem hh, ?_⟩
      exact Step.reaches_append (s := ⟨m, s, left⟩).2 ⟨y, reaches, reaches_singleton.2 further⟩
  | group k a ih =>
    obtain ⟨h, hh, reaches⟩ := ih matched (n := 2 * n) (g := g.enter k x.index)
    refine ⟨_, List.mem_map_of_mem hh, ?_⟩
    cases h with
    | done g' => exact reaches
    | take m s left g' =>
      exact Step.reaches_append (s := ⟨m, s, left⟩).2 ⟨z, reaches, reaches_singleton.2 rfl⟩

theorem matches_of_taskHead {x : Spot} {t : Task} {g : Groups} {h : Head} (hh : h ∈ t.heads x g)
    {z : Spot} (reaches : h.Reaches x z) : t.Matches x z := by
  cases t with
  | run n p => exact matches_of_head hh reaches
  | again n greedy p =>
    rcases List.mem_cons.1 hh with rfl | hh
    · exact reaches ▸ .refl
    · obtain ⟨h', hh', rfl⟩ := List.mem_map.1 hh
      rcases Head.of_reaches_append reaches with first | ⟨y, first, further⟩
      · exact .single (matches_of_head (mem_takes hh') first)
      · exact .head (matches_of_head (mem_takes hh') first) (reaches_singleton.1 further)
  | leave k =>
    rw [List.mem_singleton.1 hh] at reaches
    exact reaches

theorem reaches_of_mem_headsOfTasks {x : Spot} {seen : List (List Task)} {passed : List Nat}
    {tasks : List Task} {g : Groups} {h : Head} (hh : h ∈ headsOfTasks x seen passed tasks g)
    {z : Spot} (reaches : h.Reaches x z) : Reaches tasks x z := by
  induction tasks generalizing passed g with
  | nil =>
    rw [List.mem_singleton.1 hh] at reaches
    exact reaches
  | cons t rest ih =>
    rcases exists_of_mem_headsOfTasks hh with ⟨s, g', first, rfl⟩ | ⟨g', passed', done, hh⟩
    · obtain ⟨y, begins, further⟩ := Step.reaches_append (s := s).1 reaches
      exact ⟨y, matches_of_taskHead first begins, further⟩
    · exact ⟨x, matches_of_taskHead done rfl, ih hh⟩

section Kept
variable {x : Spot} {seen : List (List Task)} {passed : List Nat} {n : Nat} {p : Pattern}
  {rest : List Task} {g g' : Groups} {s : Step}

theorem mem_headsOfTasks_run (fresh : seen.contains (.run n p :: rest) = false)
    (hs : s.head g' ∈ heads x n p g) :
    (s.append rest).head g' ∈ headsOfTasks x seen passed (.run n p :: rest) g := by
  rw [headsOfTasks, fresh]
  exact List.mem_flatMap.2 ⟨_, hs, List.mem_singleton_self _⟩

theorem mem_headsOfTasks_done (fresh : seen.contains (.run n p :: rest) = false)
    (done : .done g' ∈ heads x n p g) {h : Head}
    (hh : h ∈ headsOfTasks x seen (offers (heads x n p g) ++ passed) rest g') :
    h ∈ headsOfTasks x seen passed (.run n p :: rest) g := by
  rw [headsOfTasks, fresh]
  exact List.mem_flatMap.2 ⟨_, done, hh⟩

variable {greedy : Bool}

theorem mem_headsOfTasks_again (fresh : seen.contains (.again n greedy p :: rest) = false)
    (hs : s.head g' ∈ heads x n p g) (unpassed : s.part ∉ passed) :
    (s.append (.again n greedy p :: rest)).head g' ∈
      headsOfTasks x seen passed (.again n greedy p :: rest) g := by
  have kept : s.head g' ∈ (takes (heads x n p g)).filter fun h => !h.part?.any passed.contains := by
    refine List.mem_filter.2 ⟨List.mem_filter.2 ⟨hs, rfl⟩, ?_⟩
    simpa [Step.head, Head.part?] using unpassed
  have more := List.mem_map_of_mem (f := (·.append (.again n greedy p :: rest))) kept
  rw [headsOfTasks, fresh]
  cases greedy
  · exact List.mem_append_right _ more
  · exact List.mem_append_left _ more

theorem mem_headsOfTasks_out (fresh : seen.contains (.again n greedy p :: rest) = false) {h : Head}
    (hh : h ∈ headsOfTasks x seen passed rest g) :
    h ∈ headsOfTasks x seen passed (.again n greedy p :: rest) g := by
  rw [headsOfTasks, fresh]
  cases greedy
  · exact List.mem_append_left _ hh
  · exact List.mem_append_right _ hh

end Kept

/-- If nothing that was seen or passed reaches a place and no head does, then the tasks do not reach
it: a head that was dropped would make the same step as one that was passed. -/
theorem not_reaches_of_heads {p : Pattern} {x z : Spot} {seen : List (List Task)}
    (hseen : ∀ l ∈ seen, ¬Reaches l x z) {passed : List Nat}
    (hpassed : ∀ s ∈ steps 1 p, s.part ∈ passed → ¬s.Reaches x z) {tasks : List Task}
    (inside : stepsOf tasks ⊆ steps 1 p) {g : Groups}
    (no_head : ∀ h ∈ headsOfTasks x seen passed tasks g, ¬h.Reaches x z) : ¬Reaches tasks x z := by
  induction tasks generalizing passed g with
  | nil => exact no_head (.done g) (List.mem_singleton_self _)
  | cons t rest ih =>
    have inside_rest : stepsOf rest ⊆ steps 1 p := (List.append_subset.1 inside).2
    cases known : seen.contains (t :: rest) with
    | true => exact hseen _ (List.contains_iff_mem.1 known)
    | false =>
    rintro ⟨y, first, further⟩
    cases t with
    | run n q =>
      have taken {s : Step} {g' : Groups} (hs : s.head g' ∈ heads x n q g) :
          ¬(s.append rest).Reaches x z := no_head _ (mem_headsOfTasks_run known hs)
      obtain ⟨h, hh, reaches⟩ := exists_head first (n := n) (g := g)
      cases h with
      | take m s left g' =>
        exact taken (s := ⟨m, s, left⟩) hh (Step.reaches_append.2 ⟨y, reaches, further⟩)
      | done g' =>
        obtain rfl : y = x := reaches
        refine ih (fun s hs part => ?_) inside_rest
          (fun h hh' => no_head h (mem_headsOfTasks_done known hh hh')) further
        rcases List.mem_append.1 part with part | part
        · obtain ⟨h, hh, same⟩ := List.mem_filterMap.1 part
          cases h with
          | done g' => cases same
          | take m chars left g' =>
            have made := step_of_mem_heads (s := ⟨m, chars, left⟩) hh
            have made := inside (List.mem_append_left _ (List.mem_map_of_mem made))
            rw [steps_unique (by decide) hs made (Option.some.inj same).symm]
            exact taken hh
        · exact hpassed s hs part
    | again n greedy q =>
      rcases exists_round (fun _ => exists_head (n := n) (g := g)) first with
        rfl | ⟨s, g', hs, u, begins, rounds⟩
      · exact ih hpassed inside_rest
          (fun h hh => no_head h (mem_headsOfTasks_out known hh)) further
      · have reaches : (s.append (.again n greedy q :: rest)).Reaches x z :=
          Step.reaches_append.2 ⟨u, begins, y, rounds, further⟩
        by_cases part : s.part ∈ passed
        · have made := List.mem_map_of_mem (f := (·.append rest))
            (List.mem_map_of_mem (f := (·.append [.again n greedy q])) (step_of_mem_heads hs))
          rw [Step.append_append] at made
          exact hpassed _ (inside (List.mem_append_left _ made)) part reaches
        · exact no_head _ (mem_headsOfTasks_again known hs part) reaches
    | leave k =>
      obtain rfl : y = x := first
      refine ih (g := g.leave k y.index) hpassed inside_rest (fun h hh => no_head h ?_) further
      rwa [headsOfTasks, known]

theorem Task.matches_of_passes {t : Task} {x : Spot} (passes : t.passes x = true) :
    t.Matches x x := by
  cases t with
  | run n p =>
    obtain ⟨g, way⟩ := exists_of_passes (p := p) passes {}
    exact matches_of_mem_ways way
  | again n greedy p => exact .refl
  | leave k => rfl

theorem reaches_of_mem_comesTo {x z : Spot} {seen : List (List Task)} {tasks l : List Task}
    (hl : l ∈ comesTo x seen tasks) (reaches : Reaches l x z) : Reaches tasks x z := by
  induction tasks with
  | nil => cases hl
  | cons t rest ih =>
    unfold comesTo at hl
    split at hl
    · cases hl
    rcases List.mem_cons.1 hl with rfl | hl
    · exact reaches
    · split at hl
      · rename_i passes
        exact ⟨x, Task.matches_of_passes passes, ih hl⟩
      · cases hl

theorem not_reaches_of_headsOfThreads {p : Pattern} {x z : Spot} {seen : List (List Task)}
    (hseen : ∀ l ∈ seen, ¬Reaches l x z) {threads : List Thread}
    (inside : ∀ t ∈ threads, stepsOf t.tasks ⊆ steps 1 p)
    (no_head : ∀ h ∈ headsOfThreads x seen threads, ¬h.Reaches x z) :
    ∀ t ∈ threads, ¬Reaches t.tasks x z := by
  induction threads generalizing seen with
  | nil => exact fun _ ht => absurd ht List.not_mem_nil
  | cons t ts ih =>
    have here : ¬Reaches t.tasks x z :=
      not_reaches_of_heads hseen (fun _ _ part => absurd part List.not_mem_nil)
        (inside t List.mem_cons_self) fun h hh => no_head h (List.mem_append_left _ hh)
    refine List.forall_mem_cons.2 ⟨here, ih (fun l hl => ?_)
      (fun u hu => inside u (List.mem_cons_of_mem t hu))
      fun h hh => no_head h (List.mem_append_right _ hh)⟩
    rcases List.mem_append.1 hl with hl | hl
    · exact fun reaches => here (reaches_of_mem_comesTo hl reaches)
    · exact hseen l hl

theorem exists_headOfThreads {p : Pattern} {x z : Spot} {threads : List Thread}
    (inside : ∀ t ∈ threads, stepsOf t.tasks ⊆ steps 1 p) {t : Thread} (ht : t ∈ threads)
    (reaches : Reaches t.tasks x z) : ∃ h ∈ headsOfThreads x [] threads, h.Reaches x z := by
  by_contra none
  refine not_reaches_of_headsOfThreads (fun _ hl => absurd hl List.not_mem_nil) inside
    (fun h hh reaches => none ⟨h, hh, reaches⟩) t ht reaches

end Snapshot.Pattern

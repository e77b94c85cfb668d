import Snapshot.Proofs.Pattern.Language

/-!
# The match that is found

At a place where a pattern matches something a match is found, and what is found is a stretch of
text that it matches. All that the groups hold lies in that stretch. This is so of every pattern,
also where the match is not the preferred way of `Pattern.ways`.
-/

namespace Snapshot.Pattern

structure Groups.Within (lo hi : Nat) (g : Groups) : Prop where
  entered : ∀ e ∈ g.entered, lo ≤ e.2 ∧ e.2 ≤ hi
  spans : ∀ e ∈ g.spans, lo ≤ e.2.start ∧ e.2.start ≤ e.2.stop ∧ e.2.stop ≤ hi

namespace Groups.Within

theorem empty (lo hi : Nat) : Within lo hi {} :=
  ⟨fun _ h => absurd h List.not_mem_nil, fun _ h => absurd h List.not_mem_nil⟩

variable {lo hi : Nat} {g : Groups}

theorem mono (h : g.Within lo hi) {hi' : Nat} (le : hi ≤ hi') : g.Within lo hi' where
  entered e he := (h.entered e he).imp_right le.trans'
  spans e he := (h.spans e he).imp_right (.imp_right le.trans')

theorem enter (h : g.Within lo hi) (le : lo ≤ hi) (n : Nat) : (g.enter n hi).Within lo hi where
  entered := List.forall_mem_cons.2 ⟨⟨le, le_rfl⟩, h.entered⟩
  spans := h.spans

theorem leave (h : g.Within lo hi) (n : Nat) : (g.leave n hi).Within lo hi := by
  unfold Groups.leave
  split
  · rename_i start entry
    obtain ⟨newer, older, entered, -⟩ := List.lookup_eq_some_iff.1 entry
    have mem : (n, start) ∈ g.entered := entered ▸ List.mem_append_right _ List.mem_cons_self
    obtain ⟨lo_le, le_hi⟩ := h.entered _ mem
    exact ⟨h.entered, List.forall_mem_cons.2 ⟨⟨lo_le, le_hi, le_rfl⟩, h.spans⟩⟩
  · exact h

end Groups.Within

def Head.groups : Head → Groups
  | done g => g
  | take _ _ _ g => g

theorem groups_append (h : Head) (tasks : List Task) : (h.append tasks).groups = h.groups := by
  cases h <;> rfl

section Heads
variable {x : Spot} {lo : Nat} (le : lo ≤ x.index) {g : Groups}
include le

theorem within_of_mem_heads {n : Nat} {p : Pattern} (hg : g.Within lo x.index) {h : Head}
    (hh : h ∈ heads x n p g) : h.groups.Within lo x.index := by
  induction p generalizing n g h with
  | empty | char s => exact List.mem_singleton.1 hh ▸ hg
  | edge e =>
    unfold heads at hh
    split at hh
    · exact List.mem_singleton.1 hh ▸ hg
    · cases hh
  | seq a b iha ihb =>
    obtain ⟨h', hh', hh⟩ := List.mem_flatMap.1 hh
    have inner := iha hg hh'
    cases h' with
    | done g' => exact ihb inner hh
    | take m s left g' => exact List.mem_singleton.1 hh ▸ inner
  | alt a b iha ihb => exact (mem_orElse hh).elim (iha hg) (ihb hg)
  | star greedy a ih =>
    rcases mem_heads_star.1 hh with rfl | ⟨h', hh', rfl⟩
    · exact hg
    · exact groups_append h' _ ▸ ih hg (mem_takes hh')
  | plus greedy a ih =>
    obtain ⟨h', hh', rfl⟩ := List.mem_map.1 hh
    exact groups_append h' _ ▸ ih hg hh'
  | group k a ih =>
    obtain ⟨h', hh', rfl⟩ := List.mem_map.1 hh
    have inner := ih (hg.enter le k) hh'
    cases h' with
    | done g' => exact inner.leave k
    | take m s left g' => exact inner

theorem within_of_mem_taskHeads {t : Task} (hg : g.Within lo x.index) {h : Head}
    (hh : h ∈ t.heads x g) : h.groups.Within lo x.index := by
  cases t with
  | run n p => exact within_of_mem_heads le hg hh
  | again n greedy p =>
    rcases List.mem_cons.1 hh with rfl | hh
    · exact hg
    · obtain ⟨h', hh', rfl⟩ := List.mem_map.1 hh
      exact groups_append h' _ ▸ within_of_mem_heads le hg (mem_takes hh')
  | leave k => exact List.mem_singleton.1 hh ▸ hg.leave k

theorem within_of_mem_headsOfTasks {seen : List (List Task)} {passed : List Nat}
    {tasks : List Task} (hg : g.Within lo x.index) {h : Head}
    (hh : h ∈ headsOfTasks x seen passed tasks g) : h.groups.Within lo x.index := by
  induction tasks generalizing passed g with
  | nil => exact List.mem_singleton.1 hh ▸ hg
  | cons t rest ih =>
    rcases exists_of_mem_headsOfTasks hh with ⟨s, g', first, rfl⟩ | ⟨g', passed', done, hh⟩
    · have inner : g'.Within lo x.index := within_of_mem_taskHeads le hg first
      exact inner
    · exact ih (within_of_mem_taskHeads le hg done) hh

end Heads

theorem inside_of_step {p : Pattern} {x : Spot} {seen : List (List Task)} {threads : List Thread}
    (inside : ∀ t ∈ threads, stepsOf t.tasks ⊆ steps 1 p) {s : Step} {g : Groups}
    (h : s.head g ∈ headsOfThreads x seen threads) : stepsOf s.left ⊆ steps 1 p := by
  obtain ⟨t, ht, seen', hh⟩ := exists_of_mem_headsOfThreads h
  exact stepsOf_left_subset (inside t ht (step_of_mem_headsOfTasks hh))

/-- The thread has come from one place to another by the pattern: what it reaches from here the
pattern matches from there. -/
structure Thread.Follows (p : Pattern) (origin here : Spot) (t : Thread) : Prop where
  inside : stepsOf t.tasks ⊆ steps 1 p
  matched : ∀ y, Reaches t.tasks here y → p.Matches origin y
  le : origin.index ≤ here.index
  within : t.groups.Within origin.index here.index

theorem follows_whole (p : Pattern) (x : Spot) : Thread.Follows p x x ⟨[.run 1 p], {}⟩ where
  inside := by rw [stepsOf_singleton]; exact List.Subset.refl _
  matched _ := reaches_singleton.1
  le := le_rfl
  within := .empty _ _

section Following
variable {p : Pattern} {origin here : Spot} {threads : List Thread}
  (follows : ∀ t ∈ threads, t.Follows p origin here)
include follows

theorem follows_of_done {g : Groups} (h : .done g ∈ headsOfThreads here [] threads) :
    p.Matches origin here ∧ g.Within origin.index here.index := by
  obtain ⟨t, ht, seen, hh⟩ := exists_of_mem_headsOfThreads h
  exact ⟨(follows t ht).matched here (reaches_of_mem_headsOfTasks hh rfl),
    within_of_mem_headsOfTasks (follows t ht).le (follows t ht).within hh⟩

theorem follows_of_step {s : Step} {g : Groups} (h : s.head g ∈ headsOfThreads here [] threads)
    (takes : here.after.head?.any s.chars.has = true) :
    Thread.Follows p origin here.next ⟨s.left, g⟩ := by
  obtain ⟨t, ht, seen, hh⟩ := exists_of_mem_headsOfThreads h
  have later : here.index ≤ here.next.index := by
    obtain ⟨before, _ | ⟨c, rest⟩, index⟩ := here
    · exact le_rfl
    · exact Nat.le_succ index
  have inner : g.Within origin.index here.index :=
    within_of_mem_headsOfTasks (follows t ht).le (follows t ht).within hh
  exact {
    inside := inside_of_step (fun t ht => (follows t ht).inside) h
    matched := fun y reaches => (follows t ht).matched y
      (reaches_of_mem_headsOfTasks hh (show s.Reaches here y from ⟨takes, reaches⟩))
    le := (follows t ht).le.trans later
    within := inner.mono later }

end Following

structure Match.Fits (p : Pattern) (x : Spot) (m : Match) : Prop where
  start : m.start = x.index
  matched : ∃ y, p.Matches x y ∧ m.stop = y.index
  within : m.groups.Within m.start m.stop

theorem done_of_firstDone {hs : List Head} {g : Groups} (h : firstDone hs = some g) :
    .done g ∈ hs := by
  induction hs with
  | nil => cases h
  | cons x hs ih =>
    cases x with
    | done g' => exact Option.some.inj h ▸ List.mem_cons_self
    | take m s left g' => exact List.mem_cons_of_mem _ (ih h)

theorem fits_of_firstDone {p : Pattern} {origin here : Spot} {threads : List Thread}
    (follows : ∀ t ∈ threads, t.Follows p origin here) {best : Option Match}
    (hbest : ∀ m ∈ best, m.Fits p origin) {m : Match}
    (hm : (match firstDone (headsOfThreads here [] threads) with
      | some g => some ⟨⟨origin.index, here.index⟩, g⟩
      | none => best) = some m) : m.Fits p origin := by
  split at hm
  · rename_i g done
    obtain rfl := Option.some.inj hm
    obtain ⟨matched, within⟩ := follows_of_done follows (done_of_firstDone done)
    exact ⟨rfl, ⟨here, matched, rfl⟩, within⟩
  · exact hbest m hm

theorem fits_of_race {p : Pattern} {origin : Spot} {after : List Char} {before : Option Char}
    {index : Nat} {threads : List Thread}
    (follows : ∀ t ∈ threads, t.Follows p origin ⟨before, after, index⟩) {best : Option Match}
    (hbest : ∀ m ∈ best, m.Fits p origin) {m : Match}
    (hm : race origin.index after before index threads best = some m) : m.Fits p origin := by
  induction after generalizing before index threads best with
  | nil => exact fits_of_firstDone follows hbest hm
  | cons c rest ih =>
    have here {m : Match} := fits_of_firstDone (m := m) follows hbest
    rw [race] at hm
    split at hm
    · exact here hm
    · refine ih (fun t ht => ?_) (fun m hm => here hm) hm
      obtain ⟨n, s, takes, hh⟩ := mem_of_mem_advance ht
      exact follows_of_step (s := ⟨n, s, t.tasks⟩) follows hh takes

theorem exists_advance {before : Option Char} {c : Char} {rest : List Char} {index : Nat}
    {hs : List Head} {h : Head} (hh : h ∈ hs) {z : Spot}
    (reaches : h.Reaches ⟨before, c :: rest, index⟩ z) :
    (firstDone hs).isSome = true ∨
      ∃ t ∈ advance c hs, Reaches t.tasks ⟨some c, rest, index + 1⟩ z := by
  induction hs with
  | nil => cases hh
  | cons x hs ih =>
    cases x with
    | done g => exact .inl rfl
    | take m s left g =>
      rcases List.mem_cons.1 hh with rfl | hh
      · obtain ⟨takes, reaches⟩ := reaches
        have takes : s.has c = true := takes
        refine .inr ⟨⟨left, g⟩, ?_, reaches⟩
        rw [advance, if_pos takes]
        exact List.mem_cons_self
      · rcases ih hh with done | ⟨t, ht, reaches⟩
        · exact .inl done
        · refine .inr ⟨t, ?_, reaches⟩
          rw [advance]
          split
          · exact List.mem_cons_of_mem _ ht
          · exact ht

theorem isSome_firstDone {hs : List Head} {g : Groups} (h : .done g ∈ hs) :
    (firstDone hs).isSome = true := by
  induction hs with
  | nil => cases h
  | cons x hs ih =>
    cases x with
    | done g' => rfl
    | take m s left g' => exact ih ((List.mem_cons.1 h).resolve_left Head.noConfusion)

theorem isSome_best {hs : List Head} {best : Option Match} {span : Span}
    (h : best.isSome = true ∨ (firstDone hs).isSome = true) :
    (match firstDone hs with
      | some g => some (Match.mk span g)
      | none => best).isSome = true := by
  cases done : firstDone hs with
  | some g => rfl
  | none => exact h.resolve_right (by simp [done])

section
variable {p : Pattern} {before : Option Char} {index : Nat} {threads : List Thread}
  (inside : ∀ t ∈ threads, stepsOf t.tasks ⊆ steps 1 p)
include inside

theorem isSome_firstDone_of_reaches {t : Thread} (ht : t ∈ threads) {z : Spot}
    (reaches : Reaches t.tasks ⟨before, [], index⟩ z) :
    (firstDone (headsOfThreads ⟨before, [], index⟩ [] threads)).isSome = true := by
  obtain ⟨h, hh, reaches⟩ := exists_headOfThreads inside ht reaches
  cases h with
  | done g => exact isSome_firstDone hh
  | take m s left g => cases reaches.1

theorem exists_advance_of_reaches {c : Char} {rest : List Char} {t : Thread} (ht : t ∈ threads)
    {z : Spot} (reaches : Reaches t.tasks ⟨before, c :: rest, index⟩ z) :
    (firstDone (headsOfThreads ⟨before, c :: rest, index⟩ [] threads)).isSome = true ∨
      ∃ u ∈ advance c (headsOfThreads ⟨before, c :: rest, index⟩ [] threads),
        Reaches u.tasks ⟨some c, rest, index + 1⟩ z := by
  obtain ⟨h, hh, reaches⟩ := exists_headOfThreads inside ht reaches
  exact exists_advance hh reaches

end

theorem isSome_race {p : Pattern} {start : Nat} {after : List Char} {before : Option Char}
    {index : Nat} {threads : List Thread} (inside : ∀ t ∈ threads, stepsOf t.tasks ⊆ steps 1 p)
    {best : Option Match} (some_way : best.isSome = true ∨
      ∃ t ∈ threads, ∃ z, Reaches t.tasks ⟨before, after, index⟩ z) :
    (race start after before index threads best).isSome = true := by
  induction after generalizing before index threads best with
  | nil =>
    rcases some_way with found | ⟨t, ht, z, reaches⟩
    · exact isSome_best (.inl found)
    · exact isSome_best (.inr (isSome_firstDone_of_reaches inside ht reaches))
  | cons c rest ih =>
    rw [race]
    split
    · rename_i stuck
      rcases some_way with found | ⟨t, ht, z, reaches⟩
      · exact isSome_best (.inl found)
      · rcases exists_advance_of_reaches inside ht reaches with done | ⟨u, hu, -⟩
        · exact isSome_best (.inr done)
        · rw [stuck] at hu
          cases hu
    · refine ih (fun t ht => ?_) ?_
      · obtain ⟨n, s, -, hh⟩ := mem_of_mem_advance ht
        exact inside_of_step (s := ⟨n, s, t.tasks⟩) inside hh
      · rcases some_way with found | ⟨t, ht, z, reaches⟩
        · exact .inl (isSome_best (.inl found))
        · rcases exists_advance_of_reaches inside ht reaches with done | ⟨u, hu, further⟩
          · exact .inl (isSome_best (.inr done))
          · exact .inr ⟨u, hu, z, further⟩

theorem fits_of_matchAt {p : Pattern} {x : Spot} {m : Match} (h : p.matchAt x = some m) :
    m.Fits p x := by
  rw [matchAt_eq_race] at h
  refine fits_of_race (fun t ht => ?_) (fun _ none => absurd none (Option.not_mem_none _)) h
  exact List.mem_singleton.1 ht ▸ follows_whole p x

theorem exists_matchAt {p : Pattern} {x y : Spot} (h : p.Matches x y) :
    ∃ m, p.matchAt x = some m := by
  rw [matchAt_eq_race]
  refine Option.isSome_iff_exists.1 (isSome_race (p := p) (fun t ht => ?_) (.inr ?_))
  · exact List.mem_singleton.1 ht ▸ (follows_whole p x).inside
  · exact ⟨_, List.mem_singleton_self _, y, reaches_singleton.2 h⟩

theorem Match.Fits.exists_stop {p : Pattern} {x : Spot} {m : Match} (h : m.Fits p x) :
    ∃ n ≤ x.after.length, m.stop = x.index + n ∧ p.Matches x (x.skip n) := by
  obtain ⟨y, matched, stop⟩ := h.matched
  obtain ⟨g, way⟩ := exists_way matched {}
  obtain ⟨n, le, same⟩ := exists_skip_of_mem_ways way
  obtain rfl : y = x.skip n := same
  exact ⟨n, le, stop.trans (Spot.index_skip le), matched⟩

end Snapshot.Pattern

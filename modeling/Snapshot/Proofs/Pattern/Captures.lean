import Snapshot.Proofs.Pattern.Search

/-!
# What groups hold

Where a group has no other inside it, it holds what its body took, so it has only characters that
the body can take. That is an invariant of the groups on the way through a pattern.
-/

namespace Snapshot.Pattern

def Keeps (I : Stand → Prop) : Pattern → Prop
  | empty | edge _ => True
  | char s => ∀ x, I x → x.1.after.head?.any s.has = true → I (x.1.next, x.2)
  | seq a b | alt a b => a.Keeps I ∧ b.Keeps I
  | star _ a | plus _ a => a.Keeps I
  | group n a => ∀ x, I x →
      ∀ y ∈ a.ways (x.1, x.2.enter n x.1.index), I (y.1, y.2.leave n y.1.index)

theorem kept_of_mem_ways {I : Stand → Prop} {p : Pattern} (hp : p.Keeps I) {x y : Stand} (hx : I x)
    (hy : y ∈ p.ways x) : I y := by
  induction p generalizing x y with
  | empty => exact List.mem_singleton.1 hy ▸ hx
  | char s =>
    simp only [ways] at hy
    split at hy
    · rename_i hs
      exact List.mem_singleton.1 hy ▸ hp x hx hs
    · simp at hy
  | edge e =>
    simp only [ways] at hy
    split at hy
    · exact List.mem_singleton.1 hy ▸ hx
    · simp at hy
  | seq a b iha ihb =>
    obtain ⟨z, hz, hy⟩ := List.mem_flatMap.1 hy
    exact ihb hp.2 (iha hp.1 hx hz) hy
  | alt a b iha ihb => exact (List.mem_append.1 hy).elim (iha hp.1 hx) (ihb hp.2 hx)
  | star greedy a ih => exact kept_of_mem_rounds (fun _ hx _ h => ih hp hx h) hx hy
  | plus greedy a ih =>
    obtain ⟨z, hz, hy⟩ := List.mem_flatMap.1 hy
    split at hy
    · exact kept_of_mem_rounds (fun _ hx _ h => ih hp hx h) (ih hp hx hz) hy
    · exact List.mem_singleton.1 hy ▸ ih hp hx hz
  | group n a ih =>
    obtain ⟨z, hz, rfl⟩ := List.mem_map.1 hy
    exact hp x hx z hz

def flat : Pattern → Bool
  | empty | char _ | edge _ => true
  | seq a b | alt a b => a.flat && b.flat
  | star _ a | plus _ a => a.flat
  | group .. => false

theorem groups_of_mem_ways {p : Pattern} (hp : p.flat = true) {x y : Stand} (hy : y ∈ p.ways x) :
    y.2 = x.2 := by
  have keeps : p.Keeps fun z => z.2 = x.2 := by
    clear hy
    induction p with
    | empty | edge e => trivial
    | char s => exact fun z hz _ => hz
    | seq a b iha ihb | alt a b iha ihb =>
      obtain ⟨ha, hb⟩ := Bool.and_eq_true_iff.1 hp
      exact ⟨iha ha, ihb hb⟩
    | star greedy a ih | plus greedy a ih => exact ih hp
    | group n a ih => cases hp
  exact kept_of_mem_ways keeps rfl hy

theorem spans_leave_enter (g : Groups) (n start stop : Nat) :
    ((g.enter n start).leave n stop).spans = (n, ⟨start, stop⟩) :: g.spans := by
  simp [Groups.enter, Groups.leave]

/-- The bodies of groups have no groups inside, and take only the characters given for the group. -/
def CapturesOver (P : Nat → Char → Prop) : Pattern → Prop
  | empty | char _ | edge _ => True
  | seq a b | alt a b => a.CapturesOver P ∧ b.CapturesOver P
  | star _ a | plus _ a => a.CapturesOver P
  | group n a => a.flat = true ∧ a.Over (P n)

theorem capturesOver_of_flat {P : Nat → Char → Prop} {p : Pattern} (hp : p.flat = true) :
    p.CapturesOver P := by
  induction p with
  | empty | char s | edge e => trivial
  | seq a b iha ihb | alt a b iha ihb =>
    obtain ⟨ha, hb⟩ := Bool.and_eq_true_iff.1 hp
    exact ⟨iha ha, ihb hb⟩
  | star greedy a ih | plus greedy a ih => exact ih hp
  | group n a ih => cases hp

def Captured (text : List Char) (P : Nat → Char → Prop) (x : Stand) : Prop :=
  (∃ s, s <:+ text ∧ x.1 = placeOf text s) ∧
    ∀ n span, (n, span) ∈ x.2.spans → ∀ c ∈ span.slice text, P n c

theorem exists_of_leads {P : Char → Prop} {text s : List Char} (h : s <:+ text) {y : Spot}
    (leads : Leads P (placeOf text s) y) :
    ∃ w rest, s = w ++ rest ∧ y = placeOf text rest ∧ ∀ c ∈ w, P c := by
  obtain ⟨m, le, rfl, taken⟩ := leads
  rw [after_placeOf h] at taken
  refine ⟨s.take m, s.drop m, (List.take_append_drop m s).symm, ?_, taken⟩
  rw [Spot.skip_eq_upto le, after_placeOf h, upto_placeOf h (List.drop_suffix m s)]

theorem keeps_captured {text : List Char} {P : Nat → Char → Prop} {p : Pattern}
    (hp : p.CapturesOver P) : p.Keeps (Captured text P) := by
  induction p with
  | empty | edge e => trivial
  | char c =>
    rintro ⟨x, g⟩ ⟨⟨s, hs, rfl⟩, spans⟩ taken
    rw [after_placeOf hs] at taken
    cases s with
    | nil => simp at taken
    | cons d s => exact ⟨⟨s, (List.suffix_cons d s).trans hs, next_placeOf hs⟩, spans⟩
  | seq a b iha ihb | alt a b iha ihb => exact ⟨iha hp.1, ihb hp.2⟩
  | star greedy a ih | plus greedy a ih => exact ih hp
  | group n a ih =>
    obtain ⟨flat, inner⟩ := hp
    rintro ⟨x, g⟩ ⟨⟨s, hs, rfl⟩, spans⟩ ⟨y, g'⟩ hy
    obtain rfl : g' = g.enter n (placeOf text s).index := groups_of_mem_ways flat hy
    obtain ⟨w, rest, rfl, rfl, taken⟩ := exists_of_leads hs (leads_of_mem_ways inner hy)
    refine ⟨⟨rest, (List.suffix_append w rest).trans hs, rfl⟩, fun k span hk => ?_⟩
    rw [spans_leave_enter] at hk
    rcases List.mem_cons.1 hk with same | hk
    · obtain ⟨rfl, rfl⟩ := Prod.mk.inj same
      rw [slice_between hs]
      exact taken
    · exact spans k span hk

section Taking
variable {p : Pattern} (steady : p.steady = true) (taking : p.nullable = false)
include steady taking

theorem exists_matchAt_of_mem {text s : List Char} (h : s <:+ text) {m : Match}
    (hm : m ∈ p.matchesFrom (placeOf text s)) :
    ∃ t, t <:+ text ∧ p.matchAt (placeOf text t) = some m := by
  induction hn : s.length using Nat.strong_induction_on generalizing s with
  | _ n ih =>
  subst hn
  cases s with
  | nil => simp [matchesFrom_end steady taking (after_placeOf h)] at hm
  | cons c s =>
    cases found : p.matchAt (placeOf text (c :: s)) with
    | none =>
      rw [matchesFrom_of_none steady taking found, next_placeOf h] at hm
      exact ih _ (Nat.lt_succ_self _) ((List.suffix_cons c s).trans h) hm rfl
    | some m' =>
      obtain ⟨n, pos, le, start, stop⟩ := matchAt_eq_some steady taking found
      have suffix : (c :: s).drop n <:+ c :: s := List.drop_suffix n _
      rw [matchesFrom_of_some steady taking found, stop, Nat.add_sub_cancel_left,
        Spot.skip_eq_upto le, after_placeOf h, upto_placeOf h suffix] at hm
      rcases List.mem_cons.1 hm with rfl | hm
      · exact ⟨c :: s, h, found⟩
      · refine ih _ ?_ (suffix.trans h) hm rfl
        rw [List.length_drop, List.length_cons]
        omega

theorem slice_over {P : Nat → Char → Prop} (captures : p.CapturesOver P) {text : List Char}
    {m : Match} (hm : m ∈ p.matchesIn text) {n : Nat} (hn : n ≠ 0) {span : Span}
    (hspan : m.span? n = some span) : ∀ c ∈ span.slice text, P n c := by
  have whole : placeOf text text = ⟨none, text, 0⟩ := Spot.upto_after _
  rw [matchesIn_eq, ← whole] at hm
  obtain ⟨t, ht, found⟩ := exists_matchAt_of_mem steady taking List.suffix_rfl hm
  rw [matchAt_eq_pursue steady] at found
  obtain ⟨y, hy, rfl⟩ := Option.map_eq_some_iff.1 found
  obtain ⟨z, hz, same⟩ := List.exists_of_findSome?_eq_some hy
  obtain rfl := Option.some.inj same
  have begins : Captured text P (placeOf text t, {}) := ⟨⟨t, ht, rfl⟩, by simp⟩
  rw [Match.span?, if_neg hn] at hspan
  obtain ⟨newer, older, spans, -⟩ := List.lookup_eq_some_iff.1 hspan
  apply (kept_of_mem_ways (keeps_captured captures) begins hz).2 n span
  have spans : z.2.spans = newer ++ (n, span) :: older := spans
  rw [spans]
  exact List.mem_append_right _ List.mem_cons_self

end Taking

end Snapshot.Pattern

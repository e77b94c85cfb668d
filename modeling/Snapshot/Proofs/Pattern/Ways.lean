import Mathlib.Data.List.Basic
import Mathlib.Order.Nat
import Snapshot.Pattern.Match.Start

/-!
# Ways to match

All the ways in which a pattern can match from a place, the preferred ones first. This is the order
in which they would be tried one after another, going back to the last choice when the rest fails.
`Pattern.pursue` gives what the rest makes of the first way that it can go on from.
-/

namespace Snapshot.Pattern

namespace Spot

def next : Spot → Spot
  | ⟨_, c :: rest, index⟩ => ⟨some c, rest, index + 1⟩
  | ⟨before, [], index⟩ => ⟨before, [], index⟩

def skip : Nat → Spot → Spot
  | 0, s => s
  | n + 1, s => skip n s.next

theorem next_cons (b : Option Char) (c : Char) (rest : List Char) (i : Nat) :
    (Spot.mk b (c :: rest) i).next = ⟨some c, rest, i + 1⟩ := rfl

@[simp]
theorem after_next (s : Spot) : s.next.after = s.after.tail := by
  obtain ⟨b, _ | ⟨c, rest⟩, i⟩ := s <;> rfl

@[simp]
theorem after_skip (n : Nat) (s : Spot) : (s.skip n).after = s.after.drop n := by
  induction n generalizing s with
  | zero => rfl
  | succ n ih => rw [skip, ih, after_next, List.drop_tail]

theorem index_skip {n : Nat} {s : Spot} (h : n ≤ s.after.length) :
    (s.skip n).index = s.index + n := by
  induction n generalizing s with
  | zero => rfl
  | succ n ih =>
    obtain ⟨b, _ | ⟨c, rest⟩, i⟩ := s
    · simp at h
    · have hn : n ≤ rest.length := by simpa using h
      rw [skip, next_cons, ih hn]
      exact Nat.add_right_comm i 1 n

theorem skip_skip (m n : Nat) (s : Spot) : (s.skip m).skip n = s.skip (m + n) := by
  induction m generalizing s with
  | zero => rw [Nat.zero_add]; rfl
  | succ m ih => rw [skip, ih, Nat.add_right_comm, skip]

theorem next_eq_skip (s : Spot) : s.next = s.skip 1 := rfl

end Spot

abbrev Stand := Spot × Groups

/-- Up to `n` more rounds of a loop; rounds that take no character do not count. -/
def rounds (greedy : Bool) (body : Stand → List Stand) : Nat → Stand → List Stand
  | 0, x => [x]
  | n + 1, x =>
    let further := ((body x).filter fun y => y.1.after.length < x.1.after.length).flatMap
      (rounds greedy body n)
    if greedy then further ++ [x] else x :: further

/-- Where a pattern can come to from a place, in order of preference. -/
def ways : Pattern → Stand → List Stand
  | empty, x => [x]
  | char s, x => if x.1.after.head?.any s.has then [(x.1.next, x.2)] else []
  | edge e, x => if e.holds x.1.before x.1.after then [x] else []
  | seq a b, x => (a.ways x).flatMap b.ways
  | alt a b, x => a.ways x ++ b.ways x
  | star greedy a, x => rounds greedy a.ways x.1.after.length x
  | plus greedy a, x => (a.ways x).flatMap fun y =>
      if y.1.after.length < x.1.after.length then rounds greedy a.ways y.1.after.length y else [y]
  | group k a, x =>
      (a.ways (x.1, x.2.enter k x.1.index)).map fun y => (y.1, y.2.leave k y.1.index)

section Loops
variable {greedy : Bool} {body : Stand → List Stand}

theorem rounds_succ {n : Nat} {x : Stand} (h : x.1.after.length ≤ n) :
    rounds greedy body (n + 1) x = rounds greedy body n x := by
  induction n generalizing x with
  | zero =>
    have none_shorter : (body x).filter (fun y => y.1.after.length < x.1.after.length) = [] := by
      simp [Nat.le_zero.1 h]
    simp [rounds, none_shorter]
  | succ n ih =>
    have same : ∀ y ∈ (body x).filter (fun y => y.1.after.length < x.1.after.length),
        rounds greedy body (n + 1) y = rounds greedy body n y := by
      intro y hy
      have shorter : y.1.after.length < x.1.after.length := by simpa using (List.mem_filter.1 hy).2
      exact ih (by omega)
    rw [rounds, List.flatMap_congr same, rounds]

theorem rounds_of_le {n : Nat} {x : Stand} (h : x.1.after.length ≤ n) :
    rounds greedy body n x = rounds greedy body x.1.after.length x := by
  induction h with
  | refl => rfl
  | step hn ih => rw [rounds_succ hn, ih]

theorem ways_star (a : Pattern) (x : Stand) :
    (star greedy a).ways x =
      let further := ((a.ways x).filter fun y => y.1.after.length < x.1.after.length).flatMap
        (star greedy a).ways
      if greedy then further ++ [x] else x :: further := by
  have same : ∀ y ∈ (a.ways x).filter (fun y => y.1.after.length < x.1.after.length),
      rounds greedy a.ways x.1.after.length y = (star greedy a).ways y := by
    intro y hy
    have shorter : y.1.after.length < x.1.after.length := by simpa using (List.mem_filter.1 hy).2
    exact rounds_of_le shorter.le
  rw [ways, ← rounds_succ le_rfl, rounds, List.flatMap_congr same]

theorem ways_plus (a : Pattern) (x : Stand) :
    (plus greedy a).ways x = (a.ways x).flatMap fun y =>
      if y.1.after.length < x.1.after.length then (star greedy a).ways y else [y] := rfl

theorem mem_ways_star {a : Pattern} {x y : Stand} :
    y ∈ (star greedy a).ways x ↔ y = x ∨
      ∃ z ∈ a.ways x, z.1.after.length < x.1.after.length ∧ y ∈ (star greedy a).ways z := by
  rw [ways_star]
  cases greedy <;> simp [or_comm, and_assoc]

theorem mem_ways_plus {a : Pattern} {x y : Stand} :
    y ∈ (plus greedy a).ways x ↔ ∃ z ∈ a.ways x,
      if z.1.after.length < x.1.after.length then y ∈ (star greedy a).ways z else y = z := by
  rw [ways_plus, List.mem_flatMap]
  refine exists_congr fun z => and_congr_right fun _ => ?_
  split
  · rfl
  · exact List.mem_singleton

end Loops

theorem kept_of_mem_rounds {I : Stand → Prop} {greedy : Bool} {body : Stand → List Stand}
    (hbody : ∀ x, I x → ∀ y ∈ body x, I y) {n : Nat} {x y : Stand} (hx : I x)
    (hy : y ∈ rounds greedy body n x) : I y := by
  induction n generalizing x with
  | zero => exact List.mem_singleton.1 hy ▸ hx
  | succ n ih =>
    have split : y = x ∨ ∃ z ∈ body x, y ∈ rounds greedy body n z := by
      cases greedy <;> simp only [rounds, Bool.false_eq_true, if_false, if_true, List.mem_cons,
        List.mem_append, List.mem_flatMap, List.mem_filter, List.not_mem_nil, or_false] at hy
      · exact hy.imp_right fun ⟨z, hz, hy⟩ => ⟨z, hz.1, hy⟩
      · exact hy.symm.imp_right fun ⟨z, hz, hy⟩ => ⟨z, hz.1, hy⟩
    rcases split with rfl | ⟨z, hz, hy⟩
    · exact hx
    · exact ih (hbody x hx z hz) hy

theorem any_of_any {s t : CharSet} (h : ∀ c, s.has c = true → t.has c = true)
    {after : List Char} (hs : after.head?.any s.has = true) : after.head?.any t.has = true := by
  cases after with
  | nil => exact hs
  | cons c rest => exact h c hs

def Leads (P : Char → Prop) (s t : Spot) : Prop :=
  ∃ m ≤ s.after.length, t = s.skip m ∧ ∀ c ∈ s.after.take m, P c

theorem Leads.refl (P : Char → Prop) (s : Spot) : Leads P s s :=
  ⟨0, Nat.zero_le _, rfl, by simp⟩

theorem Leads.trans {P : Char → Prop} {s t u : Spot} (h : Leads P s t) (h' : Leads P t u) :
    Leads P s u := by
  obtain ⟨m, hm, rfl, first⟩ := h
  obtain ⟨l, hl, rfl, further⟩ := h'
  rw [Spot.after_skip] at hl further
  rw [List.length_drop] at hl
  refine ⟨m + l, by omega, Spot.skip_skip m l s, fun c hc => ?_⟩
  rw [List.take_add] at hc
  exact (List.mem_append.1 hc).elim (first c) (further c)

def Over (P : Char → Prop) : Pattern → Prop
  | empty | edge _ => True
  | char s => ∀ c, s.has c = true → P c
  | seq a b | alt a b => a.Over P ∧ b.Over P
  | star _ a | plus _ a | group _ a => a.Over P

theorem over_true (p : Pattern) : p.Over fun _ => True := by
  induction p with
  | empty | edge e => trivial
  | char s => exact fun _ _ => trivial
  | seq a b iha ihb | alt a b iha ihb => exact ⟨iha, ihb⟩
  | star greedy a ih | plus greedy a ih | group n a ih => exact ih

theorem Over.mono {P Q : Char → Prop} (h : ∀ c, P c → Q c) {p : Pattern} (hp : p.Over P) :
    p.Over Q := by
  induction p with
  | empty | edge e => trivial
  | char s => exact fun c hc => h c (hp c hc)
  | seq a b iha ihb | alt a b iha ihb => exact ⟨iha hp.1, ihb hp.2⟩
  | star greedy a ih | plus greedy a ih | group n a ih => exact ih hp

section Leading
variable {P : Char → Prop}

theorem leads_of_mem_rounds {greedy : Bool} {body : Stand → List Stand}
    (hbody : ∀ x, ∀ y ∈ body x, Leads P x.1 y.1) {n : Nat} {x y : Stand}
    (hy : y ∈ rounds greedy body n x) : Leads P x.1 y.1 :=
  kept_of_mem_rounds (I := fun z => Leads P x.1 z.1) (fun z hz y hy => hz.trans (hbody z y hy))
    (.refl P x.1) hy

theorem leads_of_mem_ways {p : Pattern} (hp : p.Over P) {x y : Stand} (hy : y ∈ p.ways x) :
    Leads P x.1 y.1 := by
  induction p generalizing x y with
  | empty =>
    rw [List.mem_singleton.1 hy]
    exact .refl P x.1
  | char s =>
    simp only [ways] at hy
    split at hy
    · rename_i hs
      rw [List.mem_singleton.1 hy]
      cases h : x.1.after with
      | nil => simp [h] at hs
      | cons c rest =>
        refine ⟨1, by simp [h], rfl, fun d hd => ?_⟩
        obtain rfl : d = c := by simpa [h] using hd
        exact hp d (by simpa [h] using hs)
    · simp at hy
  | edge e =>
    simp only [ways] at hy
    split at hy
    · rw [List.mem_singleton.1 hy]
      exact .refl P x.1
    · simp at hy
  | seq a b iha ihb =>
    obtain ⟨z, hz, hy⟩ := List.mem_flatMap.1 hy
    exact (iha hp.1 hz).trans (ihb hp.2 hy)
  | alt a b iha ihb => exact (List.mem_append.1 hy).elim (iha hp.1) (ihb hp.2)
  | star greedy a ih => exact leads_of_mem_rounds (fun _ _ h => ih hp h) hy
  | plus greedy a ih =>
    obtain ⟨z, hz, hy⟩ := List.mem_flatMap.1 hy
    split at hy
    · exact (ih hp hz).trans (leads_of_mem_rounds (fun _ _ h => ih hp h) hy)
    · rw [List.mem_singleton.1 hy]
      exact ih hp hz
  | group k a ih =>
    obtain ⟨z, hz, rfl⟩ := List.mem_map.1 hy
    have inner := ih hp hz
    exact inner

end Leading

theorem exists_skip_of_mem_ways {p : Pattern} {x y : Stand} (hy : y ∈ p.ways x) :
    ∃ m ≤ x.1.after.length, y.1 = x.1.skip m := by
  obtain ⟨m, hm, h, -⟩ := leads_of_mem_ways p.over_true hy
  exact ⟨m, hm, h⟩

theorem length_after_le {p : Pattern} {x y : Stand} (hy : y ∈ p.ways x) :
    y.1.after.length ≤ x.1.after.length := by
  obtain ⟨m, -, h⟩ := exists_skip_of_mem_ways hy
  rw [h, Spot.after_skip, List.length_drop]
  exact Nat.sub_le _ _

theorem length_after_lt {p : Pattern} (hp : p.nullable = false) {x y : Stand}
    (hy : y ∈ p.ways x) : y.1.after.length < x.1.after.length := by
  induction p generalizing x y with
  | empty | edge e | star greedy a => simp [nullable] at hp
  | char s =>
    simp only [ways] at hy
    split at hy
    · rename_i hs
      rw [List.mem_singleton.1 hy, Spot.after_next, List.length_tail]
      cases h : x.1.after with
      | nil => simp [h] at hs
      | cons c rest => simp
    · simp at hy
  | seq a b iha ihb =>
    obtain ⟨z, hz, hy⟩ := List.mem_flatMap.1 hy
    rcases Bool.and_eq_false_iff.1 hp with ha | hb
    · exact (length_after_le hy).trans_lt (iha ha hz)
    · exact (ihb hb hy).trans_le (length_after_le hz)
  | alt a b iha ihb =>
    obtain ⟨ha, hb⟩ := Bool.or_eq_false_iff.1 hp
    exact (List.mem_append.1 hy).elim (iha ha) (ihb hb)
  | plus greedy a ih =>
    obtain ⟨z, hz, hy⟩ := List.mem_flatMap.1 hy
    have lt := ih hp hz
    rw [if_pos lt] at hy
    exact (length_after_le (p := star greedy a) hy).trans_lt lt
  | group k a ih =>
    obtain ⟨z, hz, rfl⟩ := List.mem_map.1 hy
    have hz := ih hp hz
    exact hz

theorem ways_star_of_not_nullable {greedy : Bool} {a : Pattern} (ha : a.nullable = false)
    (x : Stand) :
    (star greedy a).ways x =
      let further := (a.ways x).flatMap (star greedy a).ways
      if greedy then further ++ [x] else x :: further := by
  have all : (a.ways x).filter (fun y => y.1.after.length < x.1.after.length) = a.ways x :=
    List.filter_eq_self.2 fun y hy => decide_eq_true (length_after_lt ha hy)
  rw [ways_star, all]

theorem ways_plus_of_not_nullable {greedy : Bool} {a : Pattern} (ha : a.nullable = false)
    (x : Stand) : (plus greedy a).ways x = (a.ways x).flatMap (star greedy a).ways := by
  rw [ways_plus]
  exact List.flatMap_congr fun y hy => if_pos (length_after_lt ha hy)

/-- A way takes no character or begins with one that the pattern can begin with. -/
theorem first_of_mem_ways {p : Pattern} {x y : Stand} (hy : y ∈ p.ways x) :
    y.1 = x.1 ∧ p.nullable = true ∨ x.1.after.head?.any p.first.has = true := by
  induction p generalizing x y with
  | empty => exact .inl ⟨congrArg Prod.fst (List.mem_singleton.1 hy), rfl⟩
  | char s =>
    simp only [ways] at hy
    split at hy
    · rename_i hs
      exact .inr hs
    · simp at hy
  | edge e =>
    simp only [ways] at hy
    split at hy
    · exact .inl ⟨congrArg Prod.fst (List.mem_singleton.1 hy), rfl⟩
    · simp at hy
  | seq a b iha ihb =>
    obtain ⟨z, hz, hy⟩ := List.mem_flatMap.1 hy
    rcases iha hz with ⟨same, ha⟩ | ha
    · rcases ihb hy with ⟨same', hb⟩ | hb
      · exact .inl ⟨same'.trans same, by simp [nullable, ha, hb]⟩
      · rw [same] at hb
        exact .inr (any_of_any (fun c hc => by simp [first, ha, CharSet.has, hc]) hb)
    · refine .inr (any_of_any (fun c hc => ?_) ha)
      unfold first
      split
      · simp [CharSet.has, hc]
      · exact hc
  | alt a b iha ihb =>
    rcases List.mem_append.1 hy with hy | hy
    · rcases iha hy with ⟨same, ha⟩ | ha
      · exact .inl ⟨same, by simp [nullable, ha]⟩
      · exact .inr (any_of_any (fun c hc => by simp [first, CharSet.has, hc]) ha)
    · rcases ihb hy with ⟨same, hb⟩ | hb
      · exact .inl ⟨same, by simp [nullable, hb]⟩
      · exact .inr (any_of_any (fun c hc => by simp [first, CharSet.has, hc]) hb)
  | star greedy a ih =>
    rcases mem_ways_star.1 hy with rfl | ⟨z, hz, shorter, -⟩
    · exact .inl ⟨rfl, rfl⟩
    · refine .inr ((ih hz).resolve_left fun same => ?_)
      rw [same.1] at shorter
      exact Nat.lt_irrefl _ shorter
  | plus greedy a ih =>
    obtain ⟨z, hz, hy⟩ := List.mem_flatMap.1 hy
    rcases ih hz with ⟨same, ha⟩ | ha
    · rw [same, if_neg (Nat.lt_irrefl _)] at hy
      exact .inl ⟨(congrArg Prod.fst (List.mem_singleton.1 hy)).trans same, ha⟩
    · exact .inr ha
  | group k a ih =>
    obtain ⟨z, hz, rfl⟩ := List.mem_map.1 hy
    have hz := ih hz
    exact hz

theorem ways_eq_nil {p : Pattern} {x : Stand} (h : p.mayStart x.1.after = false) :
    p.ways x = [] := by
  apply List.eq_nil_iff_forall_not_mem.2
  intro y hy
  rcases first_of_mem_ways hy with ⟨-, hn⟩ | hf
  · simp [mayStart, hn] at h
  · simp [mayStart, hf] at h

def Blind (f : Stand → List Stand) : Prop :=
  ∀ s g g', (f (s, g)).map Prod.fst = (f (s, g')).map Prod.fst

theorem Blind.flatMap {f : Stand → List Stand} (hf : Blind f) {xs ys : List Stand}
    (h : xs.map Prod.fst = ys.map Prod.fst) :
    (xs.flatMap f).map Prod.fst = (ys.flatMap f).map Prod.fst := by
  have byPlace : ∀ zs : List Stand, (zs.flatMap f).map Prod.fst =
      (zs.map Prod.fst).flatMap fun s => (f (s, {})).map Prod.fst := by
    intro zs
    rw [List.map_flatMap, List.flatMap_map]
    exact List.flatMap_congr fun z _ => hf z.1 z.2 {}
  rw [byPlace, byPlace, h]

theorem Blind.rounds {body : Stand → List Stand} (hbody : Blind body) (greedy : Bool) (n : Nat) :
    Blind (rounds greedy body n) := by
  induction n with
  | zero => intro s g g'; rfl
  | succ n ih =>
    intro s g g'
    have shorter : ∀ xs : List Stand,
        (xs.filter fun y => y.1.after.length < s.after.length).map Prod.fst =
          (xs.map Prod.fst).filter fun t => t.after.length < s.after.length := by
      intro xs
      rw [List.filter_map]
      rfl
    have same : ((body (s, g)).filter fun y => y.1.after.length < s.after.length).map Prod.fst =
        ((body (s, g')).filter fun y => y.1.after.length < s.after.length).map Prod.fst := by
      rw [shorter, shorter, hbody s g g']
    have further := ih.flatMap same
    cases greedy
    · simp only [Pattern.rounds, Bool.false_eq_true, if_false, List.map_cons, further]
    · simp only [Pattern.rounds, if_true, List.map_append, further, List.map_cons, List.map_nil]

theorem blind_ways (p : Pattern) : Blind p.ways := by
  induction p with
  | empty => intro s g g'; rfl
  | char t => intro s g g'; simp only [ways]; split <;> rfl
  | edge e => intro s g g'; simp only [ways]; split <;> rfl
  | seq a b iha ihb => intro s g g'; exact ihb.flatMap (iha s g g')
  | alt a b iha ihb =>
    intro s g g'
    simp only [ways, List.map_append, iha s g g', ihb s g g']
  | star greedy a ih => intro s g g'; exact ih.rounds greedy _ s g g'
  | plus greedy a ih =>
    intro s g g'
    refine Blind.flatMap (fun t h h' => ?_) (ih s g g')
    dsimp only
    split
    · exact ih.rounds greedy _ t h h'
    · rfl
  | group k a ih =>
    intro s g g'
    simp only [ways, List.map_map]
    exact ih s (g.enter k s.index) (g'.enter k s.index)

/-- Whether a place is one that the rest can go on from does not depend on the groups. -/
def Uniform {α : Type} (k : Stand → Option α) : Prop :=
  ∀ s g g', (k (s, g)).isSome = (k (s, g')).isSome

theorem isSome_findSome? {α : Type} {k : Stand → Option α} (hk : Uniform k) (xs : List Stand) :
    (xs.findSome? k).isSome = (xs.map Prod.fst).any fun s => (k (s, {})).isSome := by
  induction xs with
  | nil => rfl
  | cons x xs ih =>
    rw [List.findSome?_cons, List.map_cons, List.any_cons, ← hk x.1 x.2 {}, ← ih]
    cases k x <;> rfl

/-- What the rest makes of the first way that it can go on from. -/
def pursue {α : Type} (p : Pattern) (x : Stand) (k : Stand → Option α) : Option α :=
  (p.ways x).findSome? k

section Pursue
variable {α : Type} {k : Stand → Option α}

theorem findSome?_flatMap {β γ : Type} (xs : List β) (f : β → List γ) (k : γ → Option α) :
    (xs.flatMap f).findSome? k = xs.findSome? fun x => (f x).findSome? k := by
  induction xs with
  | nil => rfl
  | cons x xs ih =>
    rw [List.flatMap_cons, List.findSome?_append, ih, List.findSome?_cons]
    cases (f x).findSome? k <;> rfl

theorem findSome?_congr {β : Type} {xs : List β} {k l : β → Option α} (h : ∀ x ∈ xs, k x = l x) :
    xs.findSome? k = xs.findSome? l := by
  induction xs with
  | nil => rfl
  | cons x xs ih =>
    rw [List.findSome?_cons, List.findSome?_cons, h x List.mem_cons_self,
      ih fun y hy => h y (List.mem_cons_of_mem _ hy)]

theorem Uniform.pursue (hk : Uniform k) (p : Pattern) : Uniform fun x => p.pursue x k := by
  intro s g g'
  change ((p.ways (s, g)).findSome? k).isSome = ((p.ways (s, g')).findSome? k).isSome
  rw [isSome_findSome? hk, isSome_findSome? hk, blind_ways p s g g']

theorem pursue_seq (a b : Pattern) (x : Stand) :
    (seq a b).pursue x k = a.pursue x fun y => b.pursue y k := findSome?_flatMap _ _ _

theorem pursue_alt (a b : Pattern) (x : Stand) :
    (alt a b).pursue x k = (a.pursue x k).or (b.pursue x k) := List.findSome?_append

theorem pursue_group (n : Nat) (a : Pattern) (x : Stand) :
    (group n a).pursue x k =
      a.pursue (x.1, x.2.enter n x.1.index) fun y => k (y.1, y.2.leave n y.1.index) :=
  List.findSome?_map

theorem pursue_empty (x : Stand) : empty.pursue x k = k x := by
  simp [pursue, ways]

theorem pursue_char (s : CharSet) (x : Stand) :
    (char s).pursue x k = if x.1.after.head?.any s.has then k (x.1.next, x.2) else none := by
  unfold pursue ways
  split <;> simp

theorem pursue_edge (e : Edge) (x : Stand) :
    (edge e).pursue x k = if e.holds x.1.before x.1.after then k x else none := by
  unfold pursue ways
  split <;> simp

theorem pursue_star {a : Pattern} (ha : a.nullable = false) (greedy : Bool) (x : Stand) :
    (star greedy a).pursue x k =
      let further := a.pursue x fun y => (star greedy a).pursue y k
      if greedy then further.or (k x) else (k x).or further := by
  have further : ((a.ways x).flatMap (star greedy a).ways).findSome? k =
      a.pursue x fun y => (star greedy a).pursue y k := findSome?_flatMap _ _ _
  rw [pursue, ways_star_of_not_nullable ha]
  cases greedy
  · simp only [Bool.false_eq_true, if_false, List.findSome?_cons, further]
    cases k x <;> rfl
  · simp only [if_true, List.findSome?_append, further, List.findSome?_cons, List.findSome?_nil]
    cases k x <;> rfl

theorem pursue_plus {a : Pattern} (ha : a.nullable = false) (greedy : Bool) (x : Stand) :
    (plus greedy a).pursue x k = a.pursue x fun y => (star greedy a).pursue y k := by
  rw [pursue, ways_plus_of_not_nullable ha]
  exact findSome?_flatMap _ _ _

theorem pursue_eq_none {p : Pattern} {x : Stand} (h : p.mayStart x.1.after = false) :
    p.pursue x k = none := by
  rw [pursue, ways_eq_nil h]
  rfl

end Pursue

end Snapshot.Pattern

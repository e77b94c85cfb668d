import Snapshot.DocComment
import Snapshot.Proofs.Pattern.Search

/-!
# The comments of a text

A doc comment goes from the first `/**` to the first `*/` behind it, and the next one is looked for
behind that. What a comment says is what stands between, without the blanks at both ends.
-/

namespace Snapshot.DocComment
open Pattern Text

theorem trimStart_close (rest : List Char) :
    trimStart ("*/".toList ++ rest) = "*/".toList ++ rest := trimStart_eq_self isBlank_star

theorem pursue_close (x : Stand) :
    (seq blanks (word "*/")).pursue x some =
      (after? "*/" (trimStart x.1.after)).map fun r => (x.1.upto r, x.2) := by
  have stop : Refuses (fun y => (word "*/").pursue y some) .blank :=
    refuses_pursue rfl fun c hc => by
      cases h : (word "*/").first.has c with
      | false => rfl
      | true =>
        obtain rfl := (has_single '*' c).1 h
        rw [CharSet.has, isBlank_star] at hc
        exact Bool.noConfusion hc
  have suffix := trimStart_suffix x.1.after
  rw [pursue_seq, pursue_blanks stop, pursue_word, Spot.after_upto suffix, Option.map_eq_bind]
  apply Option.bind_congr
  intro r hr
  rw [Spot.upto_upto suffix (suffix_of_after? hr)]
  rfl

theorem close_eq_none {s b rest : List Char} (h : upTo? "*/" s = some (b, rest)) {n : Nat}
    (hn : n < (trimEnd b).length) : after? "*/" (trimStart (s.drop n)) = none := by
  have first := not_infix_of_upTo? (by simp) h
  cases hr : after? "*/" (trimStart (s.drop n)) with
  | none => rfl
  | some r =>
    obtain ⟨e, parts, -⟩ := exists_trimEnd b
    have le : n ≤ b.length := by
      rw [parts, List.length_append]
      omega
    have filled : trimStart (b.drop n) ≠ [] := fun h => by
      have := trimStart_drop_eq_nil_iff.1 h
      omega
    refine absurd ?_ first
    have same := after?_eq_some_iff.1 hr
    rw [eq_of_upTo? h, List.drop_append_of_le_length le, trimStart_append filled] at same
    obtain ⟨c, cs, hq⟩ := List.exists_cons_of_ne_nil filled
    rw [hq] at same
    have early : "*/".toList <+: (c :: cs) ++ ['*'] := by
      refine List.prefix_of_prefix_length_le ⟨r, same.symm⟩ ?_ (by simp)
      exact (List.prefix_append_right_inj _).2 ⟨'/' :: rest, rfl⟩
    obtain ⟨pre, at_end⟩ := (trimStart_suffix (b.drop n)).trans (List.drop_suffix n b)
    refine early.isInfix.trans ⟨pre, [], ?_⟩
    rw [← at_end, hq]
    simp

theorem close_eq_some {s b rest : List Char} (h : upTo? "*/" s = some (b, rest)) :
    after? "*/" (trimStart (s.drop (trimEnd b).length)) = some rest := by
  obtain ⟨e, parts, -⟩ := exists_trimEnd b
  have le : (trimEnd b).length ≤ b.length := by
    conv_rhs => rw [parts]
    rw [List.length_append]
    omega
  have blank := trimStart_eq_nil_iff.1 (trimStart_drop_eq_nil_iff.2 (le_refl (trimEnd b).length))
  rw [eq_of_upTo? h, List.drop_append_of_le_length le, trimStart_append_of_blank blank,
    trimStart_close]
  exact after?_eq_some_iff.2 rfl

theorem close_eq_none_of_upTo? {s : List Char} (h : upTo? "*/" s = none) (n : Nat) :
    after? "*/" (trimStart (s.drop n)) = none := by
  cases hr : after? "*/" (trimStart (s.drop n)) with
  | none => rfl
  | some r =>
    refine absurd ?_ ((upTo?_eq_none_iff (by simp)).1 h)
    have first : "*/".toList <+: trimStart (s.drop n) := ⟨r, (after?_eq_some_iff.1 hr).symm⟩
    exact first.isInfix.trans ((trimStart_suffix _).trans (List.drop_suffix n s)).isInfix

theorem findSome?_range {α : Type} {f : Nat → Option α} {a : α} {n m : Nat} (hn : n < m)
    (before : ∀ i < n, f i = none) (h : f n = some a) : (List.range m).findSome? f = some a := by
  obtain ⟨l, rfl⟩ : ∃ l, m = n + (1 + l) := ⟨m - n - 1, by omega⟩
  refine List.findSome?_eq_some_iff.2 ⟨List.range n, n, (List.range l).map (n + 1 + ·), ?_, h, ?_⟩
  · rw [List.range_add, List.range_add, List.map_append, List.map_map]
    simp [Function.comp_def, Nat.add_assoc]
  · exact fun i hi => before i (List.mem_range.1 hi)

/-- The text of a comment goes on up to the first closing mark, without the blanks before it. -/
theorem pursue_text (y : Stand) :
    (seq (group 1 (star false (char .any))) (seq blanks (word "*/"))).pursue y some =
      (upTo? "*/" y.1.after).map fun found =>
        (y.1.upto found.2,
          (y.2.enter 1 y.1.index).leave 1 (y.1.index + (trimEnd found.1).length)) := by
  have all : y.1.after.takeWhile CharSet.any.has = y.1.after :=
    List.takeWhile_eq_self_iff.2 fun _ _ => rfl
  rw [pursue_seq, pursue_group, pursue_star_char]
  simp only [all, pursue_close, Spot.after_skip, Bool.false_eq_true, if_false]
  cases h : upTo? "*/" y.1.after with
  | none =>
    refine List.findSome?_eq_none_iff.2 fun n _ => ?_
    rw [close_eq_none_of_upTo? h n]
    rfl
  | some found =>
    obtain ⟨b, rest⟩ := found
    obtain ⟨e, parts, -⟩ := exists_trimEnd b
    have whole := congrArg List.length (eq_of_upTo? h)
    have short := congrArg List.length parts
    rw [List.length_append] at whole short
    have le : (trimEnd b).length ≤ y.1.after.length := by omega
    refine findSome?_range (n := (trimEnd b).length) (Nat.lt_succ_of_le le) (fun n hn => ?_) ?_
    · rw [close_eq_none h hn]
      rfl
    · have suffix : rest <:+ y.1.after.drop (trimEnd b).length :=
        (suffix_of_after? (close_eq_some h)).trans (trimStart_suffix _)
      rw [close_eq_some h, Option.map_some, Spot.index_skip le, Spot.skip_eq_upto le,
        Spot.upto_upto (List.drop_suffix _ _) suffix]

theorem upTo?_close (r : List Char) :
    upTo? "*/" r = (upTo? "*/" (trimStart r)).map fun found =>
      (r.takeWhile isBlank ++ found.1, found.2) := by
  have no_star : '*' ∉ r.takeWhile isBlank :=
    not_mem_of_blank isBlank_star fun _ hc => List.mem_takeWhile_imp hc
  have parts : r = r.takeWhile isBlank ++ trimStart r := List.takeWhile_append_dropWhile.symm
  conv_lhs => rw [parts]
  exact upTo?_append_of_not_mem rfl no_star _

theorem trim_append {r b rest : List Char} (h : upTo? "*/" (trimStart r) = some (b, rest)) :
    trim (r.takeWhile isBlank ++ b) = trimEnd b := by
  have blank : ∀ c ∈ r.takeWhile isBlank, isBlank c = true := fun c hc => List.mem_takeWhile_imp hc
  have start : trimStart b = b := by
    cases b with
    | nil => rfl
    | cons c b =>
      have head := head?_trimStart r
      rw [eq_of_upTo? h] at head
      exact trimStart_eq_self head
  rw [trim, trimStart_append_of_blank blank, start]

def standIn (x : Spot) (r : List Char) (found : List Char × List Char) : Stand :=
  (x.upto found.2, (({} : Groups).enter 1 (x.upto (trimStart r)).index).leave 1
    ((x.upto (trimStart r)).index + (trim found.1).length))

theorem pursue_block (x : Spot) :
    block.pursue (x, {}) some = (after? "/**" x.after).bind fun r =>
      (upTo? "*/" r).map (standIn x r) := by
  change (seq (word "/**") (seq blanks (seq (group 1 (star false (char .any)))
    (seq blanks (word "*/"))))).pursue (x, {}) some = _
  rw [pursue_seq, pursue_word]
  apply Option.bind_congr
  intro r hr
  have opened := suffix_of_after? hr
  have trimmed := trimStart_suffix r
  have at_end : (seq (group 1 (star false (char .any))) (seq blanks (word "*/"))).pursue
      ((x.upto r).upto (trimStart r), {}) some = (upTo? "*/" r).map (standIn x r) := by
    rw [pursue_text, Spot.upto_upto opened trimmed, Spot.after_upto (trimmed.trans opened),
      upTo?_close r, Option.map_map]
    apply Option.map_congr
    intro found hfound
    obtain ⟨b, rest⟩ := found
    have suffix := suffix_of_upTo? hfound
    rw [Function.comp_apply, standIn, trim_append hfound,
      Spot.upto_upto (trimmed.trans opened) suffix]
  rw [pursue_seq, ← at_end]
  have there : (x.upto r).after = r := Spot.after_upto opened
  have run := pursue_run (s := .blank) (x := (x.upto r, ({} : Groups)))
    (k := fun y => (seq (group 1 (star false (char .any))) (seq blanks (word "*/"))).pursue y some)
  rw [there, has_blank] at run
  apply run
  intro n hn none_at_end
  have unclosed := Option.map_eq_none_iff.1 (at_end.symm.trans none_at_end)
  have unclosed_here : upTo? "*/" (r.drop n) = none := by
    rw [upTo?_eq_none_iff (by simp)] at unclosed ⊢
    exact fun inside => unclosed (inside.trans (List.drop_suffix n r).isInfix)
  rw [pursue_text, Spot.after_skip, there, unclosed_here]
  rfl

theorem length_lt_of_comment {s x r body rest : List Char} (opened : upTo? "/**" s = some (x, r))
    (closed : upTo? "*/" r = some (body, rest)) : rest.length < s.length := by
  have parts := congrArg List.length (eq_of_upTo? opened)
  have le := (suffix_of_upTo? closed).length_le
  have mark : "/**".toList.length = 3 := rfl
  simp only [List.length_append] at parts
  omega

/-- What the comments of a text say, in order. -/
def comments (s : List Char) : List (List Char) :=
  match _opened : upTo? "/**" s with
  | none => []
  | some (_, r) =>
    match _closed : upTo? "*/" r with
    | none => []
    | some (body, rest) => trim body :: comments rest
termination_by s.length
decreasing_by exact length_lt_of_comment _opened _closed

theorem comments_of_upTo?_eq_none {s : List Char} (h : upTo? "/**" s = none) : comments s = [] := by
  rw [comments]
  split
  · rfl
  · rename_i opened
    simp [h] at opened

/-- What is said by a comment that has been opened, and by those behind it. -/
def within (r : List Char) : List (List Char) :=
  match upTo? "*/" r with
  | none => []
  | some (body, rest) => trim body :: comments rest

theorem within_of_unclosed {r : List Char} (h : upTo? "*/" r = none) : within r = [] := by
  rw [within, h]

theorem within_of_closed {r body rest : List Char} (h : upTo? "*/" r = some (body, rest)) :
    within r = trim body :: comments rest := by
  rw [within, h]

theorem comments_of_opened {s x r : List Char} (h : upTo? "/**" s = some (x, r)) :
    comments s = within r := by
  rw [comments, within]
  split
  · rename_i unopened
    simp [h] at unopened
  · rename_i x' r' opened
    obtain ⟨-, rfl⟩ := Prod.mk.inj (Option.some.inj (h.symm.trans opened))
    split <;> simp_all

theorem comments_of_map {s t x : List Char}
    (h : upTo? "/**" t = (upTo? "/**" s).map fun found => (x ++ found.1, found.2)) :
    comments t = comments s := by
  cases hs : upTo? "/**" s with
  | none =>
    rw [hs] at h
    rw [comments_of_upTo?_eq_none hs, comments_of_upTo?_eq_none h]
  | some found =>
    rw [hs] at h
    rw [comments_of_opened hs, comments_of_opened h]

theorem comments_of_unclosed {r : List Char} (h : upTo? "*/" r = none) :
    comments ('*' :: '*' :: r) = [] := by
  have stars : comments (['*', '*'] ++ r) = comments r :=
    comments_of_map (upTo?_append_of_not_mem rfl (by decide) r)
  apply stars.trans
  cases hr : upTo? "/**" r with
  | none => exact comments_of_upTo?_eq_none hr
  | some found =>
    obtain ⟨x, r'⟩ := found
    have unclosed : upTo? "*/" r' = none := by
      rw [upTo?_eq_none_iff (by simp)] at h ⊢
      exact fun inside => h (inside.trans (suffix_of_upTo? hr).isInfix)
    rw [comments_of_opened hr, within_of_unclosed unclosed]

def comment? (s : List Char) : Option (List Char × List Char) :=
  (after? "/**" s).bind (upTo? "*/")

theorem comments_of_comment? {s body rest : List Char} (h : comment? s = some (body, rest)) :
    comments s = trim body :: comments rest := by
  obtain ⟨r, opened, closed⟩ := Option.bind_eq_some_iff.1 h
  cases s with
  | nil => cases opened
  | cons c s => rw [comments_of_opened (upTo?_of_after? opened), within_of_closed closed]

theorem comments_of_comment?_eq_none {c : Char} {s : List Char} (h : comment? (c :: s) = none) :
    comments (c :: s) = comments s := by
  cases opened : after? "/**" (c :: s) with
  | none => exact comments_of_map (x := [c]) (upTo?_of_after?_eq_none opened)
  | some r =>
    have unclosed : upTo? "*/" r = none := by rwa [comment?, opened] at h
    obtain ⟨rfl, rfl⟩ : c = '/' ∧ s = '*' :: '*' :: r := by
      simpa using after?_eq_some_iff.1 opened
    rw [comments_of_opened (upTo?_of_after? opened), within_of_unclosed unclosed,
      comments_of_unclosed unclosed]

theorem trim_prefix_of_upTo? {r b rest : List Char} (h : upTo? "*/" r = some (b, rest)) :
    trim b <+: trimStart r := by
  rw [upTo?_close] at h
  obtain ⟨⟨b', rest'⟩, found, same⟩ := Option.map_eq_some_iff.1 h
  obtain ⟨rfl, rfl⟩ := Prod.mk.inj same
  obtain ⟨e, parts, -⟩ := exists_trimEnd b'
  rw [trim_append found, eq_of_upTo? found]
  exact List.IsPrefix.trans ⟨e, parts.symm⟩ (List.prefix_append _ _)

theorem steady_block : block.steady = true := rfl

theorem taking_block : block.nullable = false := rfl

theorem matchAt_block (x : Spot) : block.matchAt x = (after? "/**" x.after).bind fun r =>
    (upTo? "*/" r).map fun found => Match.ofStand x.index (standIn x r found) := by
  rw [matchAt_eq_pursue steady_block, pursue_block, Option.map_bind]
  apply Option.bind_congr
  intro r _
  rw [Function.comp_apply, Option.map_map]
  rfl

theorem matchAt_block_eq_none_iff (x : Spot) :
    block.matchAt x = none ↔ comment? x.after = none := by
  rw [matchAt_block, comment?]
  cases after? "/**" x.after with
  | none => exact iff_of_true rfl rfl
  | some r => exact Option.map_eq_none_iff

theorem span?_standIn {text s r b rest : List Char} (h : s <:+ text)
    (opened : after? "/**" s = some r) (closed : upTo? "*/" r = some (b, rest)) :
    ((Match.ofStand (placeOf text s).index (standIn (placeOf text s) r (b, rest))).span? 1).map
      (·.slice text) = some (trim b) := by
  have suffix := (trimStart_suffix r).trans (suffix_of_after? opened)
  have span : (Match.ofStand (placeOf text s).index
      (standIn (placeOf text s) r (b, rest))).span? 1 =
        some ⟨text.length - (trimStart r).length,
          text.length - (trimStart r).length + (trim b).length⟩ := by
    simp [Match.span?, Match.ofStand, standIn, Groups.enter, Groups.leave, upto_placeOf h suffix,
      index_placeOf]
  rw [span, Option.map_some, slice_prefix (suffix.trans h) (trim_prefix_of_upTo? closed)]

theorem texts_from {text s : List Char} (h : s <:+ text) :
    (block.matchesFrom (placeOf text s)).map (fun m => (m.span? 1).map (·.slice text)) =
      (comments s).map some := by
  -- Both sides go on behind a comment, or at the next character where there is none.
  induction hn : s.length using Nat.strong_induction_on generalizing s with
  | _ n ih =>
  subst hn
  cases s with
  | nil =>
    rw [matchesFrom_end steady_block taking_block (after_placeOf h),
      comments_of_upTo?_eq_none rfl]
    rfl
  | cons c s =>
    have there := after_placeOf h
    have next := next_placeOf h
    have further := ih s.length (Nat.lt_succ_self _) ((List.suffix_cons c s).trans h) rfl
    cases first : comment? (c :: s) with
    | none =>
      have missed : block.matchAt (placeOf text (c :: s)) = none := by
        rw [matchAt_block_eq_none_iff, there, first]
      rw [matchesFrom_of_none steady_block taking_block missed, next, further,
        comments_of_comment?_eq_none first]
    | some found =>
      obtain ⟨b, rest⟩ := found
      obtain ⟨r, opened, closed⟩ := Option.bind_eq_some_iff.1 first
      have found : block.matchAt (placeOf text (c :: s)) = some (Match.ofStand
          (placeOf text (c :: s)).index (standIn (placeOf text (c :: s)) r (b, rest))) := by
        rw [matchAt_block, there, opened, Option.bind_some, closed]
        rfl
      have suffix := (suffix_of_upTo? closed).trans (suffix_of_after? opened)
      have shorter := length_lt_of_comment (upTo?_of_after? opened) closed
      have stop : (Match.ofStand (placeOf text (c :: s)).index
          (standIn (placeOf text (c :: s)) r (b, rest))).stop = (placeOf text rest).index :=
        congrArg Spot.index (upto_placeOf h suffix)
      rw [matchesFrom_of_some steady_block taking_block found, stop, skip_placeOf h suffix,
        List.map_cons, span?_standIn h opened closed, ih rest.length shorter (suffix.trans h) rfl,
        comments_of_comment? first]
      rfl

theorem last?_eq (text : List Char) : last? text = (comments text).getLast?.map normalize := by
  have whole : placeOf text text = ⟨none, text, 0⟩ := Spot.upto_after _
  have all := texts_from (List.suffix_refl text)
  rw [whole, ← matchesIn_eq] at all
  have last := congrArg List.getLast? all
  rw [List.getLast?_map, List.getLast?_map] at last
  rw [last?]
  cases hm : (block.matchesIn text).getLast? with
  | none =>
    rw [hm] at last
    rw [Option.map_eq_none_iff.1 last.symm]
    rfl
  | some m =>
    rw [hm] at last
    obtain ⟨body, hbody, same⟩ := Option.map_eq_some_iff.1 last.symm
    have same : (m.span? 1).map (·.slice text) = some body := same.symm
    obtain ⟨span, hspan, rfl⟩ := Option.map_eq_some_iff.1 same
    rw [hbody, Option.bind_some, hspan]
    rfl

end Snapshot.DocComment

import Mathlib.Data.List.Infix
import Mathlib.Data.List.TakeWhile
import Snapshot.Text.Blank

/-!
# Reading a text from the left

Steps that go forward in a text without ever going back. Each gives the text behind what it has
read, which is an end of the text before.
-/

namespace Snapshot.Text

def after? (word : String) (s : List Char) : Option (List Char) := s.dropPrefix? word.toList

def afterBlanks? (s : List Char) : Option (List Char) :=
  if s.head?.any isBlank then some (trimStart s) else none

def skipQualifier (word : String) (s : List Char) : List Char :=
  ((after? word s).bind afterBlanks?).getD s

theorem eq_append_of_dropPrefix? {s w rest : List Char} (h : s.dropPrefix? w = some rest) :
    s = w ++ rest := by
  obtain ⟨w', rfl, hw⟩ := List.dropPrefix?_eq_some_iff.1 h
  rw [beq_iff_eq.1 hw]

theorem dropPrefix?_append (w rest : List Char) : (w ++ rest).dropPrefix? w = some rest :=
  List.dropPrefix?_append_of_beq rest (beq_self_eq_true w)

theorem after?_eq_some_iff {word : String} {s rest : List Char} :
    after? word s = some rest ↔ s = word.toList ++ rest :=
  ⟨eq_append_of_dropPrefix?, fun h => h ▸ dropPrefix?_append _ _⟩

theorem suffix_of_after? {word : String} {s rest : List Char} (h : after? word s = some rest) :
    rest <:+ s := ⟨word.toList, (after?_eq_some_iff.1 h).symm⟩

theorem trimStart_suffix (s : List Char) : trimStart s <:+ s := List.dropWhile_suffix _

theorem afterBlanks?_eq_some_iff {s rest : List Char} :
    afterBlanks? s = some rest ↔ s.head?.any isBlank = true ∧ trimStart s = rest := by
  simp [afterBlanks?]

theorem suffix_of_afterBlanks? {s rest : List Char} (h : afterBlanks? s = some rest) :
    rest <:+ s := (afterBlanks?_eq_some_iff.1 h).2 ▸ trimStart_suffix s

theorem afterWord?_eq_some_iff {word : String} {s rest : List Char} :
    (after? word s).bind afterBlanks? = some rest ↔
      ∃ r, s = word.toList ++ r ∧ r.head?.any isBlank = true ∧ trimStart r = rest := by
  simp only [Option.bind_eq_some_iff, after?_eq_some_iff, afterBlanks?_eq_some_iff]

theorem skipQualifier_suffix (word : String) (s : List Char) : skipQualifier word s <:+ s := by
  unfold skipQualifier
  cases h : (after? word s).bind afterBlanks? with
  | none => exact List.suffix_rfl
  | some rest =>
    obtain ⟨mid, h₁, h₂⟩ := Option.bind_eq_some_iff.1 h
    exact (suffix_of_afterBlanks? h₂).trans (suffix_of_after? h₁)

theorem head?_dropWhile_any {p : Char → Bool} (s : List Char) :
    (s.dropWhile p).head?.any p = false := by
  induction s with
  | nil => rfl
  | cons c s ih =>
    cases hc : p c with
    | true => rw [List.dropWhile_cons_of_pos hc, ih]
    | false => simp [hc]

theorem head?_trimStart (s : List Char) : (trimStart s).head?.any isBlank = false :=
  head?_dropWhile_any s

theorem dropWhile_eq_self {p : Char → Bool} {s : List Char} (h : s.head?.any p = false) :
    s.dropWhile p = s := by
  cases s with
  | nil => rfl
  | cons c s => exact List.dropWhile_cons_of_neg (by simpa using h)

theorem trimStart_eq_self {s : List Char} (h : s.head?.any isBlank = false) : trimStart s = s :=
  dropWhile_eq_self h

theorem afterBlanks?_space {s : List Char} (h : s.head?.any isBlank = false) :
    afterBlanks? (' ' :: s) = some s :=
  afterBlanks?_eq_some_iff.2
    ⟨isBlank_space, (List.dropWhile_cons_of_pos isBlank_space).trans (trimStart_eq_self h)⟩

theorem isBlank_star : isBlank '*' = false := by decide

theorem isBlank_slash : isBlank '/' = false := by decide

theorem not_mem_of_blank {c : Char} (dark : isBlank c = false) {s : List Char}
    (blank : ∀ d ∈ s, isBlank d = true) : c ∉ s := by
  intro hc
  rw [blank c hc] at dark
  exact Bool.noConfusion dark

theorem trimStart_append {s t : List Char} (h : trimStart s ≠ []) :
    trimStart (s ++ t) = trimStart s ++ t := by
  have stop : (s.dropWhile isBlank).isEmpty = false := by simpa [trimStart] using h
  rw [trimStart, List.dropWhile_append, stop]
  rfl

theorem trimStart_append_of_blank {e t : List Char} (h : ∀ c ∈ e, isBlank c = true) :
    trimStart (e ++ t) = trimStart t := List.dropWhile_append_of_pos h

theorem trimStart_eq_nil_iff {s : List Char} : trimStart s = [] ↔ ∀ c ∈ s, isBlank c = true :=
  List.dropWhile_eq_nil_iff

theorem exists_trimEnd (s : List Char) : ∃ e, s = trimEnd s ++ e ∧ ∀ c ∈ e, isBlank c = true := by
  refine ⟨(s.reverse.takeWhile isBlank).reverse, ?_, fun c hc => ?_⟩
  · rw [trimEnd, ← List.reverse_append, List.takeWhile_append_dropWhile, List.reverse_reverse]
  · exact List.mem_takeWhile_imp (List.mem_reverse.1 hc)

theorem trimEnd_append {s t : List Char} (h : trimEnd t ≠ []) :
    trimEnd (s ++ t) = s ++ trimEnd t := by
  have filled : trimStart t.reverse ≠ [] := fun none_left => h (by
    rw [trimEnd, ← trimStart, none_left]
    rfl)
  rw [trimEnd, ← trimStart, List.reverse_append, trimStart_append filled, List.reverse_append,
    List.reverse_reverse]
  rfl

theorem trimEnd_append_of_blank {s t : List Char} (h : ∀ c ∈ t, isBlank c = true) :
    trimEnd (s ++ t) = trimEnd s := by
  rw [trimEnd, List.reverse_append, List.dropWhile_append_of_pos fun c hc =>
    h c (List.mem_reverse.1 hc)]
  rfl

theorem isBlank_getLast?_trimEnd {s : List Char} {c : Char} (h : (trimEnd s).getLast? = some c) :
    isBlank c = false := by
  rw [trimEnd, List.getLast?_reverse] at h
  have stop := head?_dropWhile_any (p := isBlank) s.reverse
  rwa [h, Option.any_some] at stop

theorem trimEnd_eq_self {s : List Char} (h : s.getLast?.any isBlank = false) : trimEnd s = s := by
  have first : s.reverse.head?.any isBlank = false := by rwa [List.head?_reverse]
  rw [trimEnd, dropWhile_eq_self first, List.reverse_reverse]

theorem getLast?_trimEnd (s : List Char) : (trimEnd s).getLast?.any isBlank = false := by
  cases h : (trimEnd s).getLast? with
  | none => rfl
  | some c => exact isBlank_getLast?_trimEnd h

theorem head?_trim (s : List Char) : (trim s).head?.any isBlank = false := by
  obtain ⟨e, parts, -⟩ := exists_trimEnd (trimStart s)
  have first := head?_trimStart s
  rw [trim]
  cases ends : trimEnd (trimStart s) with
  | nil => rfl
  | cons c t =>
    rw [parts, ends] at first
    exact first

theorem isInfix_trim (s : List Char) : trim s <:+: s := by
  obtain ⟨e, parts, -⟩ := exists_trimEnd (trimStart s)
  have inner : trimEnd (trimStart s) <+: trimStart s := ⟨e, parts.symm⟩
  exact inner.isInfix.trans (trimStart_suffix s).isInfix

theorem trim_eq_self_iff {s : List Char} :
    trim s = s ↔ s.head?.any isBlank = false ∧ s.getLast?.any isBlank = false := by
  constructor
  · intro h
    rw [← h]
    exact ⟨head?_trim s, getLast?_trimEnd _⟩
  · rintro ⟨first, last⟩
    rw [trim, trimStart_eq_self first, trimEnd_eq_self last]

theorem trim_blank_cons {c : Char} (h : isBlank c = true) (s : List Char) :
    trim (c :: s) = trim s :=
  congrArg trimEnd (List.dropWhile_cons_of_pos h)

theorem trimStart_drop_eq_nil_iff {s : List Char} {n : Nat} :
    trimStart (s.drop n) = [] ↔ (trimEnd s).length ≤ n := by
  obtain ⟨e, parts, blank⟩ := exists_trimEnd s
  rw [trimStart_eq_nil_iff]
  constructor
  · intro h
    by_contra lt
    have ne : trimEnd s ≠ [] := fun empty => by simp [empty] at lt
    have last : (trimEnd s).getLast? = some ((trimEnd s).getLast ne) :=
      List.getLast?_eq_some_getLast ne
    have dropped : s.drop n = (trimEnd s).drop n ++ e := by
      conv_lhs => rw [parts, List.drop_append_of_le_length (by omega)]
    have inside : (trimEnd s).getLast ne ∈ s.drop n := by
      rw [dropped]
      apply List.mem_append_left _
      have drop : (trimEnd s).drop n ≠ [] := fun h => lt (List.drop_eq_nil_iff.1 h)
      rw [← List.getLast_drop drop]
      exact List.getLast_mem drop
    have stop := isBlank_getLast?_trimEnd last
    rw [h _ inside] at stop
    exact Bool.noConfusion stop
  · intro le c hc
    rw [parts, List.drop_append, List.drop_eq_nil_of_le le, List.nil_append] at hc
    exact blank c (List.mem_of_mem_drop hc)

theorem count_trim {c : Char} (dark : isBlank c = false) (s : List Char) :
    (trim s).count c = s.count c := by
  have none_blank : ∀ {e : List Char}, (∀ d ∈ e, isBlank d = true) → e.count c = 0 :=
    fun blank => List.count_eq_zero.2 (not_mem_of_blank dark blank)
  have start : (trimStart s).count c = s.count c := by
    conv_rhs => rw [← List.takeWhile_append_dropWhile (p := isBlank) (l := s), List.count_append,
      none_blank fun d hd => List.mem_takeWhile_imp hd, Nat.zero_add]
    rfl
  obtain ⟨e, parts, blank⟩ := exists_trimEnd (trimStart s)
  rw [trim, ← start]
  conv_rhs => rw [parts, List.count_append, none_blank blank, Nat.add_zero]

theorem mem_of_mem_splitOn {s piece : List Char} {d : Char} (h : piece ∈ s.splitOn d) :
    ∀ c ∈ piece, c ∈ s ∧ c ≠ d := by
  induction s generalizing piece with
  | nil =>
    rw [List.splitOn_nil, List.mem_singleton] at h
    simp [h]
  | cons e s ih =>
    have further : ∀ piece ∈ s.splitOn d, ∀ c ∈ piece, c ∈ e :: s ∧ c ≠ d := fun piece hp c hc =>
      ⟨List.mem_cons_of_mem e (ih hp c hc).1, (ih hp c hc).2⟩
    rw [List.splitOn_cons_eq_if_modifyHead] at h
    split at h
    · rcases List.mem_cons.1 h with rfl | h
      · simp
      · exact further piece h
    · rename_i he
      obtain ⟨first, rest, parts⟩ := List.exists_cons_of_ne_nil (List.splitOn_ne_nil d s)
      rw [parts, List.modifyHead_cons] at h
      rcases List.mem_cons.1 h with rfl | h
      · intro c hc
        rcases List.mem_cons.1 hc with rfl | hc
        · exact ⟨List.mem_cons_self, fun same => he (beq_iff_eq.2 same)⟩
        · exact further first (parts ▸ List.mem_cons_self) c hc
      · exact further piece (parts ▸ List.mem_cons_of_mem first h)

theorem exists_mem_splitOn {s : List Char} {c d : Char} (hc : c ∈ s) (ne : c ≠ d) :
    ∃ piece ∈ s.splitOn d, c ∈ piece := by
  induction s with
  | nil => cases hc
  | cons e s ih =>
    obtain ⟨first, rest, parts⟩ := List.exists_cons_of_ne_nil (List.splitOn_ne_nil d s)
    rw [List.splitOn_cons_eq_if_modifyHead, parts, List.modifyHead_cons]
    rcases List.mem_cons.1 hc with rfl | hc
    · rw [if_neg fun same => ne (beq_iff_eq.1 same)]
      exact ⟨c :: first, List.mem_cons_self, List.mem_cons_self⟩
    · obtain ⟨piece, hpiece, inside⟩ := ih hc
      split
      · exact ⟨piece, List.mem_cons_of_mem _ (parts ▸ hpiece), inside⟩
      · rw [parts] at hpiece
        rcases List.mem_cons.1 hpiece with rfl | hpiece
        · exact ⟨e :: piece, List.mem_cons_self, List.mem_cons_of_mem e inside⟩
        · exact ⟨piece, List.mem_cons_of_mem _ hpiece, inside⟩

theorem splitOn_append {e s first : List Char} {more : List (List Char)} {d : Char} (he : d ∉ e)
    (h : s.splitOn d = first :: more) : (e ++ s).splitOn d = (e ++ first) :: more := by
  induction e with
  | nil => exact h
  | cons c e ih =>
    rw [List.mem_cons, not_or] at he
    rw [List.cons_append, List.splitOn_cons_eq_if_modifyHead, ih he.2,
      if_neg fun same => he.1 (beq_iff_eq.1 same).symm]
    rfl

theorem prefix_of_splitOn {s first : List Char} {more : List (List Char)} {d : Char}
    (h : s.splitOn d = first :: more) : first <+: s := by
  have whole : [d].intercalate (s.splitOn d) = s := List.intercalate_splitOn d
  rw [h] at whole
  cases more with
  | nil => exact ⟨[], by simpa using whole⟩
  | cons second more => exact ⟨_, by rw [← whole, List.intercalate_cons_cons, List.append_assoc]⟩

theorem takeWhile_until {mark : Char} {line : List Char} (h : mark ∉ line) (rest : List Char) :
    (line ++ mark :: rest).takeWhile (· != mark) = line := by
  rw [List.takeWhile_append_of_pos, List.takeWhile_cons_of_neg (by simp), List.append_nil]
  intro c hc
  exact bne_iff_ne.2 fun same => h (same ▸ hc)

theorem dropWhile_until {mark : Char} {line : List Char} (h : mark ∉ line) (rest : List Char) :
    (line ++ mark :: rest).dropWhile (· != mark) = mark :: rest := by
  rw [List.dropWhile_append_of_pos, List.dropWhile_cons_of_neg (by simp)]
  intro c hc
  exact bne_iff_ne.2 fun same => h (same ▸ hc)

theorem prefix_of_append_eq {c : Char} {s t p r : List Char} (h : s ++ t = p ++ c :: r)
    (hc : c ∉ s) : s <+: p := by
  rcases List.append_eq_append_iff.1 h with ⟨e, rfl, -⟩ | ⟨e, rfl, same⟩
  · exact List.prefix_append s e
  · cases e with
    | nil => rw [List.append_nil]
    | cons d e =>
      obtain ⟨rfl, -⟩ := List.cons.inj same
      exact absurd (by simp) hc

theorem infix_append_cons_iff {c : Char} {k s t : List Char} (hc : c ∉ k) :
    k <:+: s ++ c :: t ↔ k <:+: s ∨ k <:+: t := by
  constructor
  · rintro ⟨u, v, parts⟩
    rw [List.append_assoc] at parts
    rcases List.append_eq_append_iff.1 parts with ⟨e, rfl, same⟩ | ⟨e, rfl, same⟩
    · exact .inl ((prefix_of_append_eq same hc).isInfix.trans (List.suffix_append u e).isInfix)
    · cases e with
      | nil =>
        have first : k <+: [] := prefix_of_append_eq (show k ++ v = [] ++ c :: t from same.symm) hc
        exact .inl (first.isInfix.trans List.nil_infix)
      | cons d e =>
        obtain ⟨rfl, rfl⟩ := List.cons.inj same
        exact .inr ⟨e, v, List.append_assoc e k v⟩
  · rintro (inside | inside)
    · exact inside.trans (List.prefix_append s _).isInfix
    · exact inside.trans ((List.suffix_cons c t).trans (List.suffix_append s _)).isInfix

/-- The text before the first place where a word stands, and the text behind the word. The word is
not empty. -/
def upTo? (word : String) : List Char → Option (List Char × List Char)
  | [] => none
  | c :: s =>
    match after? word (c :: s) with
    | some rest => some ([], rest)
    | none => (upTo? word s).map fun found => (c :: found.1, found.2)

section UpTo
variable {word : String} {s x rest : List Char}

theorem upTo?_of_after? {c : Char} (h : after? word (c :: s) = some rest) :
    upTo? word (c :: s) = some ([], rest) := by
  rw [upTo?, h]

theorem upTo?_of_after?_eq_none {c : Char} (h : after? word (c :: s) = none) :
    upTo? word (c :: s) = (upTo? word s).map fun found => (c :: found.1, found.2) := by
  rw [upTo?, h]

theorem eq_of_upTo? (h : upTo? word s = some (x, rest)) : s = x ++ (word.toList ++ rest) := by
  induction s generalizing x with
  | nil => simp [upTo?] at h
  | cons c s ih =>
    cases hr : after? word (c :: s) with
    | some r =>
      rw [upTo?_of_after? hr] at h
      obtain ⟨rfl, rfl⟩ := Prod.mk.inj (Option.some.inj h)
      exact after?_eq_some_iff.1 hr
    | none =>
      rw [upTo?_of_after?_eq_none hr] at h
      obtain ⟨⟨x', rest'⟩, hfound, same⟩ := Option.map_eq_some_iff.1 h
      obtain ⟨rfl, rfl⟩ := Prod.mk.inj same
      rw [List.cons_append, ← ih hfound]

theorem suffix_of_upTo? (h : upTo? word s = some (x, rest)) : rest <:+ s := by
  refine ⟨x ++ word.toList, ?_⟩
  rw [eq_of_upTo? h, List.append_assoc]

theorem infix_of_upTo? (h : upTo? word s = some (x, rest)) : word.toList <:+: s := by
  refine ⟨x, rest, ?_⟩
  rw [eq_of_upTo? h, List.append_assoc]

theorem not_infix_of_upTo? (hw : word.toList ≠ []) (h : upTo? word s = some (x, rest)) :
    ¬ word.toList <:+: x ++ word.toList.dropLast := by
  induction s generalizing x with
  | nil => simp [upTo?] at h
  | cons c s ih =>
    cases hr : after? word (c :: s) with
    | some r =>
      rw [upTo?_of_after? hr] at h
      obtain ⟨rfl, rfl⟩ := Prod.mk.inj (Option.some.inj h)
      intro inside
      have le := inside.length_le
      have pos := List.length_pos_iff.2 hw
      rw [List.nil_append, List.length_dropLast] at le
      omega
    | none =>
      rw [upTo?_of_after?_eq_none hr] at h
      obtain ⟨⟨x', rest'⟩, hfound, same⟩ := Option.map_eq_some_iff.1 h
      obtain ⟨rfl, rfl⟩ := Prod.mk.inj same
      rw [List.cons_append, List.infix_cons_iff, not_or]
      refine ⟨fun first => ?_, ih hfound⟩
      have whole : word.toList <+: c :: s := by
        apply first.trans
        rw [eq_of_upTo? hfound, ← List.cons_append]
        exact (List.prefix_append_right_inj _).2
          ((List.dropLast_prefix _).trans (List.prefix_append _ _))
      obtain ⟨r, same⟩ := whole
      simp [after?_eq_some_iff.2 same.symm] at hr

theorem upTo?_eq_none_iff (hw : word.toList ≠ []) : upTo? word s = none ↔ ¬ word.toList <:+: s := by
  induction s with
  | nil => simp [upTo?, hw]
  | cons c s ih =>
    rw [List.infix_cons_iff, not_or, ← ih]
    cases hr : after? word (c :: s) with
    | some r =>
      rw [upTo?_of_after? hr]
      have first : word.toList <+: c :: s := ⟨r, (after?_eq_some_iff.1 hr).symm⟩
      simp [first]
    | none =>
      have first : ¬ word.toList <+: c :: s := by
        rintro ⟨r, same⟩
        simp [after?_eq_some_iff.2 same.symm] at hr
      simp [upTo?_of_after?_eq_none hr, first]

theorem upTo?_of_not_mem {c : Char} {cs : List Char} (hw : word.toList = c :: cs) (h : c ∉ s) :
    upTo? word s = none := by
  refine (upTo?_eq_none_iff (by simp [hw])).2 fun inside => h (inside.subset ?_)
  rw [hw]
  exact List.mem_cons_self

/-- The word is found where it stands, unless it stands at an earlier place. Then it has begun, but
perhaps not ended, in the text before. -/
theorem upTo?_append (hw : word.toList ≠ []) (h : ¬ word.toList <:+: x ++ word.toList.dropLast)
    (rest : List Char) : upTo? word (x ++ (word.toList ++ rest)) = some (x, rest) := by
  induction x with
  | nil =>
    have found : after? word (word.toList ++ rest) = some rest := after?_eq_some_iff.2 rfl
    cases hs : word.toList ++ rest with
    | nil => exact absurd (List.append_eq_nil_iff.1 hs).1 hw
    | cons c s =>
      rw [hs] at found
      rw [List.nil_append, upTo?_of_after? found]
  | cons c x ih =>
    rw [List.cons_append, List.infix_cons_iff, not_or] at h
    have missed : after? word (c :: (x ++ (word.toList ++ rest))) = none := by
      cases hr : after? word (c :: (x ++ (word.toList ++ rest))) with
      | none => rfl
      | some r =>
        refine absurd ?_ h.1
        have whole : word.toList <+: (c :: (x ++ word.toList.dropLast)) ++
            ([word.toList.getLast hw] ++ rest) := by
          refine ⟨r, (after?_eq_some_iff.1 hr).symm.trans ?_⟩
          rw [List.cons_append, List.append_assoc, ← List.append_assoc word.toList.dropLast,
            List.dropLast_append_getLast hw]
        apply List.prefix_of_prefix_length_le whole (List.prefix_append _ _)
        rw [List.length_cons, List.length_append, List.length_dropLast]
        omega
    rw [List.cons_append, upTo?_of_after?_eq_none missed, ih h.2]
    rfl

theorem upTo?_append_right (hw : word.toList ≠ []) (h : upTo? word s = some (x, rest))
    (t : List Char) : upTo? word (s ++ t) = some (x, rest ++ t) := by
  have found := upTo?_append hw (not_infix_of_upTo? hw h) (rest ++ t)
  rwa [← List.append_assoc word.toList, ← List.append_assoc, ← eq_of_upTo? h] at found

theorem upTo?_append_of_not_mem {c : Char} {cs : List Char} (hw : word.toList = c :: cs)
    (hx : c ∉ x) (s : List Char) :
    upTo? word (x ++ s) = (upTo? word s).map fun found => (x ++ found.1, found.2) := by
  induction x with
  | nil => simp
  | cons d x ih =>
    rw [List.mem_cons, not_or] at hx
    have missed : after? word (d :: (x ++ s)) = none := by
      cases hr : after? word (d :: (x ++ s)) with
      | none => rfl
      | some r =>
        have same := after?_eq_some_iff.1 hr
        rw [hw] at same
        exact absurd (List.cons.inj same).1.symm hx.1
    rw [List.cons_append, upTo?_of_after?_eq_none missed, ih hx.2, Option.map_map]
    rfl

end UpTo

end Snapshot.Text

import Snapshot.Proofs.Comment.Decoration

/-!
# The normalized text of a comment

A normalized text is the words of the text without its decoration, with one space between them.
Words with one space between them are already normal. Whatever a text is, only stars, spaces and
other blanks are lost or changed when it is normalized.
-/

namespace Snapshot.DocComment
open Pattern Text

def squeeze : List Char → List Char
  | [] => []
  | c :: s => if isBlank c then ' ' :: squeeze (s.dropWhile isBlank) else c :: squeeze s
termination_by s => s.length
decreasing_by
  · exact Nat.lt_succ_of_le (List.dropWhile_suffix _).length_le
  · exact Nat.lt_succ_self _

theorem steady_blanks1 : blanks1.steady = true := rfl

theorem taking_blanks1 : blanks1.nullable = false := rfl

theorem matchAt_blanks1 (x : Spot) : blanks1.matchAt x =
    (afterBlanks? x.after).map fun rest => Match.ofStand x.index (x.upto rest, {}) := by
  have run := pursue_run1 (s := .blank) (x := (x, {})) (k := some) fun n _ h => by simp at h
  rw [has_blank] at run
  rw [matchAt_eq_pursue steady_blanks1, blanks1, many1, run, afterBlanks?]
  split <;> rfl

theorem replaced_blanks1 (x : Spot) : blanks1.replaced [' '] x = squeeze x.after := by
  induction hn : x.after.length using Nat.strong_induction_on generalizing x with
  | _ n ih =>
  subst hn
  cases hx : x.after with
  | nil => rw [replaced_end steady_blanks1 taking_blanks1 hx, squeeze]
  | cons c rest =>
    by_cases hc : isBlank c = true
    · have found := matchAt_blanks1 x
      have blanks : afterBlanks? x.after = some (rest.dropWhile isBlank) := by
        rw [afterBlanks?, hx]
        simp [hc, trimStart]
      have suffix : rest.dropWhile isBlank <:+ x.after :=
        hx ▸ (List.dropWhile_suffix _).trans (List.suffix_cons c rest)
      have shorter := (List.dropWhile_suffix (p := isBlank) (l := rest)).length_le
      rw [blanks] at found
      rw [replaced_of_upto steady_blanks1 taking_blanks1 found, squeeze, if_pos hc, ih _ ?_ _ rfl,
        Spot.after_upto suffix]
      · rfl
      · rw [Spot.after_upto suffix, hx, List.length_cons]
        omega
    · have missed : blanks1.matchAt x = none := by
        rw [matchAt_blanks1, afterBlanks?, hx]
        simp [hc]
      rw [replaced_of_none steady_blanks1 taking_blanks1 hx missed, squeeze, if_neg hc,
        ih _ (by simp [hx]) x.next rfl, Spot.after_next, hx, List.tail_cons]

theorem dark_of_head?_squeeze {s : List Char} (h : s.head?.any isBlank = false) :
    (squeeze s).head?.any isBlank = false := by
  cases s with
  | nil => rw [squeeze]; rfl
  | cons c s =>
    have dark : isBlank c = false := h
    rw [squeeze, dark]
    exact h

def joined (words : List (List Char)) : List Char := [' '].intercalate words

def AllWords (words : List (List Char)) : Prop :=
  words ≠ [] ∧ ∀ w ∈ words, w ≠ [] ∧ ∀ c ∈ w, isBlank c = false

theorem joined_cons (w : List Char) {words : List (List Char)} (h : words ≠ []) :
    joined (w :: words) = w ++ ' ' :: joined words := by
  cases words with
  | nil => exact absurd rfl h
  | cons w' words => simp [joined, List.intercalate_cons_cons]

theorem AllWords.tail {w w' : List Char} {words : List (List Char)}
    (h : AllWords (w :: w' :: words)) : AllWords (w' :: words) :=
  ⟨List.cons_ne_nil _ _, fun v hv => h.2 v (List.mem_cons_of_mem _ hv)⟩

theorem exists_joined {words : List (List Char)} (h : AllWords words) :
    ∃ c s, joined words = c :: s ∧ isBlank c = false := by
  cases words with
  | nil => exact absurd rfl h.1
  | cons w words =>
    obtain ⟨ne, dark⟩ := h.2 w List.mem_cons_self
    obtain ⟨c, cs, rfl⟩ := List.exists_cons_of_ne_nil ne
    have hc := dark c List.mem_cons_self
    cases words with
    | nil => exact ⟨c, cs, by simp [joined], hc⟩
    | cons w' words =>
      exact ⟨c, cs ++ ' ' :: joined (w' :: words), joined_cons _ (List.cons_ne_nil _ _), hc⟩

theorem isBlank_getLast?_joined {words : List (List Char)} (h : AllWords words) :
    (joined words).getLast?.any isBlank = false := by
  induction words with
  | nil => exact absurd rfl h.1
  | cons w words ih =>
    cases words with
    | nil =>
      obtain ⟨ne, dark⟩ := h.2 w List.mem_cons_self
      have last : (joined [w]).getLast? = some (w.getLast ne) := by
        simp [joined, List.getLast?_eq_some_getLast ne]
      rw [last]
      exact dark _ (List.getLast_mem ne)
    | cons w' words =>
      obtain ⟨c, s, hs, -⟩ := exists_joined h.tail
      rw [joined_cons _ (List.cons_ne_nil _ _),
        List.getLast?_append_of_ne_nil _ (List.cons_ne_nil _ _),
        List.getLast?_cons_of_ne_nil (by simp [hs])]
      exact ih h.tail

theorem squeeze_append {w : List Char} (hw : ∀ c ∈ w, isBlank c = false) (s : List Char) :
    squeeze (w ++ s) = w ++ squeeze s := by
  induction w with
  | nil => rfl
  | cons c w ih =>
    rw [List.forall_mem_cons] at hw
    rw [List.cons_append, squeeze, hw.1, if_neg Bool.false_ne_true, ih hw.2]
    rfl

theorem squeeze_joined {words : List (List Char)} (h : AllWords words) :
    squeeze (joined words) = joined words := by
  induction words with
  | nil => exact absurd rfl h.1
  | cons w words ih =>
    obtain ⟨-, dark⟩ := h.2 w List.mem_cons_self
    cases words with
    | nil =>
      have alone := squeeze_append dark []
      rw [squeeze, List.append_nil] at alone
      simpa [joined] using alone
    | cons w' words =>
      obtain ⟨c, s, hs, hc⟩ := exists_joined h.tail
      have stop : (joined (w' :: words)).dropWhile isBlank = joined (w' :: words) :=
        dropWhile_eq_self (by rw [hs]; exact hc)
      rw [joined_cons _ (List.cons_ne_nil _ _), squeeze_append dark, squeeze, isBlank_space,
        if_pos rfl, stop, ih h.tail]

theorem trim_joined {words : List (List Char)} (h : AllWords words) :
    trim (joined words) = joined words := by
  obtain ⟨c, s, hs, hc⟩ := exists_joined h
  have start : trimStart (joined words) = joined words :=
    trimStart_eq_self (by rw [hs]; exact hc)
  rw [trim, start, trimEnd_eq_self (isBlank_getLast?_joined h)]

theorem plain_of_mem_wordsFrom {current s w : List Char}
    (dark : ∀ c ∈ current, isBlank c = false) (h : w ∈ wordsFrom current s) :
    w ≠ [] ∧ ∀ c ∈ w, isBlank c = false := by
  have found : ∀ {current : List Char}, ¬ current.isEmpty = true →
      (∀ c ∈ current, isBlank c = false) →
      current.reverse ≠ [] ∧ ∀ c ∈ current.reverse, isBlank c = false := by
    intro current filled dark
    exact ⟨by simpa using filled, fun c hc => dark c (List.mem_reverse.1 hc)⟩
  fun_induction wordsFrom current s with
  | case1 current none_yet => cases h
  | case2 current filled =>
    rw [List.mem_singleton.1 h]
    exact found filled dark
  | case3 current c rest blank none_yet ih => exact ih (by simp) h
  | case4 current c rest blank filled ih =>
    rcases List.mem_cons.1 h with rfl | h
    · exact found filled dark
    · exact ih (by simp) h
  | case5 current c rest hc ih =>
    exact ih (List.forall_mem_cons.2 ⟨Bool.eq_false_iff.2 hc, dark⟩) h

/-- The words from here on; the first of them may be under way. -/
theorem trimEnd_squeeze {current : List Char} (dark : ∀ c ∈ current, isBlank c = false)
    (s : List Char) :
    trimEnd (if current.isEmpty then squeeze (trimStart s) else current.reverse ++ squeeze s) =
      joined (wordsFrom current s) := by
  have alone : ∀ {current : List Char}, (∀ c ∈ current, isBlank c = false) →
      trimEnd current.reverse = current.reverse := by
    intro current dark
    refine trimEnd_eq_self ?_
    rw [List.getLast?_reverse]
    cases current with
    | nil => rfl
    | cons c current => exact dark c List.mem_cons_self
  fun_induction wordsFrom current s with
  | case1 current none_yet =>
    rw [if_pos none_yet, trimStart, List.dropWhile_nil, squeeze]
    rfl
  | case2 current filled =>
    rw [if_neg filled, squeeze, List.append_nil, alone dark]
    simp [joined]
  | case3 current c rest blank none_yet ih =>
    rw [if_pos none_yet, trimStart, List.dropWhile_cons_of_pos blank]
    exact ih (by simp)
  | case4 current c rest blank filled ih =>
    have further : trimEnd (squeeze (trimStart rest)) = joined (wordsFrom [] rest) := ih (by simp)
    rw [if_neg filled, squeeze, if_pos blank, ← trimStart]
    by_cases last : wordsFrom [] rest = []
    · have spaces : ∀ d ∈ ' ' :: squeeze (trimStart rest), isBlank d = true := by
        rw [last] at further
        exact List.forall_mem_cons.2 ⟨isBlank_space, List.rdropWhile_eq_nil_iff.1 further⟩
      rw [trimEnd_append_of_blank spaces, alone dark, last]
      simp [joined]
    · have words : AllWords (wordsFrom [] rest) :=
        ⟨last, fun w hw => plain_of_mem_wordsFrom (by simp) hw⟩
      obtain ⟨d, more, shown, -⟩ := exists_joined words
      have ends : trimEnd (squeeze (trimStart rest)) ≠ [] := by
        rw [further, shown]
        exact List.cons_ne_nil d more
      rw [List.append_cons, trimEnd_append ends, further, joined_cons _ last, List.append_assoc]
      rfl
  | case5 current c rest hc ih =>
    have further := ih (List.forall_mem_cons.2 ⟨Bool.eq_false_iff.2 hc, dark⟩)
    rw [if_neg (by simp), List.reverse_cons, List.append_assoc] at further
    rw [← further, trimStart, List.dropWhile_cons_of_neg hc, squeeze, if_neg hc]
    cases current <;> rfl

theorem trimStart_squeeze (s : List Char) : trimStart (squeeze s) = squeeze (trimStart s) := by
  have dark : ∀ {s : List Char}, s.head?.any isBlank = false → trimStart (squeeze s) = squeeze s :=
    fun h => trimStart_eq_self (dark_of_head?_squeeze h)
  cases s with
  | nil => exact dark rfl
  | cons c s =>
    cases hc : isBlank c with
    | false => rw [dark (s := c :: s) hc, trimStart_eq_self (s := c :: s) hc]
    | true =>
      rw [squeeze, if_pos hc, trimStart, List.dropWhile_cons_of_pos isBlank_space, trimStart,
        List.dropWhile_cons_of_pos hc]
      exact dark (head?_dropWhile_any s)

theorem trim_squeeze (s : List Char) : trim (squeeze s) = joined (words s) := by
  have none_yet : ∀ c ∈ [], isBlank c = false := fun _ hc => nomatch hc
  rw [trim, trimStart_squeeze]
  exact trimEnd_squeeze none_yet s

theorem normalize_eq_squeeze (body : List Char) :
    normalize body = trim (squeeze (undecorated body)) := by
  rw [normalize, replaceAll_decoration]
  exact congrArg trim (replaced_blanks1 ⟨none, undecorated body, 0⟩)

/-- The normalized text is the words that are left without the decoration. -/
theorem normalize_eq (body : List Char) :
    normalize body = joined (words (undecorated body)) := by
  rw [normalize_eq_squeeze, trim_squeeze]

example : normalize "* a*b\n\t** c\r **".toList = "a*b c".toList := by decide +kernel

def Decorative (c : Char) : Prop := c = '*' ∨ c = ' ' ∨ c = '\t'

theorem decorative_of_space {c : Char} (h : isSpaceOrTab c = true) : Decorative c := by
  simpa [isSpaceOrTab, Decorative] using Or.inr (Bool.or_eq_true_iff.1 h)

theorem over_spaceOrTab : spaceOrTab.Over Decorative :=
  fun _ hc => decorative_of_space (has_spaceOrTab ▸ hc)

theorem over_star : (word "*").Over Decorative := fun c hc => .inl ((has_single '*' c).1 hc)

theorem over_decoration : decoration.Over Decorative :=
  ⟨⟨trivial, over_spaceOrTab, over_star⟩, over_star, over_spaceOrTab, trivial⟩

theorem undecorated_eq_self {d : List Char} (first : ∀ c, d.head? = some c → ¬ Decorative c)
    (last : ∀ c, d.getLast? = some c → ¬ Decorative c) (one_line : '\n' ∉ d) :
    undecorated d = d := by
  have leading : dropStars d = d := by
    refine dropStars_of_no_star ?_
    cases d with
    | nil => rfl
    | cons c d =>
      have plain := first c rfl
      rw [List.dropWhile_cons_of_neg (mt decorative_of_space plain)]
      cases star : after? "*" (c :: d) with
      | none => rfl
      | some rest => exact absurd (.inl (List.cons.inj (after?_eq_some_iff.1 star)).1) plain
  have trailing : dropLastStars d = d := by
    have kept : d.rdropWhile isSpaceOrTab = d := List.rdropWhile_eq_self_iff.2 fun filled hc =>
      last _ (List.getLast?_eq_some_getLast filled) (decorative_of_space hc)
    exact if_neg fun star => last '*' (kept ▸ star) (.inl rfl)
  rw [undecorated, List.splitOn_eq_singleton one_line]
  simp [dropStarsAtEnd, leading, trailing]

theorem not_decorative {c : Char} (dark : isBlank c = false) (star : c ≠ '*') : ¬ Decorative c := by
  rintro (rfl | rfl | rfl)
  · exact star rfl
  · rw [isBlank_space] at dark
    exact Bool.noConfusion dark
  · revert dark
    decide

theorem dark_of_mem_joined {words : List (List Char)} (h : AllWords words) {c : Char}
    (hc : c ∈ joined words) : c = ' ' ∨ isBlank c = false := by
  induction words with
  | nil => exact absurd rfl h.1
  | cons w words ih =>
    have dark := (h.2 w List.mem_cons_self).2
    cases words with
    | nil => exact .inr (dark c (by simpa [joined] using hc))
    | cons w' words =>
      rw [joined_cons _ (List.cons_ne_nil _ _)] at hc
      rcases List.mem_append.1 hc with hc | hc
      · exact .inr (dark c hc)
      · rcases List.mem_cons.1 hc with hc | hc
        · exact .inl hc
        · exact ih h.tail hc

theorem normalize_joined {words : List (List Char)} (h : AllWords words)
    (first : (joined words).head? ≠ some '*') (last : (joined words).getLast? ≠ some '*') :
    normalize (joined words) = joined words := by
  have first_plain : ∀ c, (joined words).head? = some c → ¬ Decorative c := by
    intro c hc
    obtain ⟨c', s, hs, dark⟩ := exists_joined h
    obtain rfl : c' = c := by simpa [hs] using hc
    exact not_decorative dark fun star => first (star ▸ hc)
  have last_plain : ∀ c, (joined words).getLast? = some c → ¬ Decorative c := by
    intro c hc
    have dark := isBlank_getLast?_joined h
    rw [hc] at dark
    exact not_decorative dark fun star => last (star ▸ hc)
  have one_line : '\n' ∉ joined words := by
    intro hn
    rcases dark_of_mem_joined h hn with hn | hn <;> revert hn <;> decide
  rw [normalize_eq_squeeze, undecorated_eq_self first_plain last_plain one_line, squeeze_joined h,
    trim_joined h]

theorem count_normalize {c : Char} (dark : isBlank c = false) (star : c ≠ '*') (s : List Char) :
    (normalize s).count c = s.count c := by
  have plain := not_decorative dark star
  have decoration_over : decoration.Over (· ≠ c) := by
    apply over_decoration.mono
    rintro d hd rfl
    exact plain hd
  have blanks_over : blanks1.Over (· ≠ c) := by
    rintro d hd rfl
    have blank : isBlank d = true := hd
    rw [dark] at blank
    exact Bool.noConfusion blank
  have no_space : c ∉ [' '] := by
    intro hc
    rw [List.mem_singleton.1 hc, isBlank_space] at dark
    exact Bool.noConfusion dark
  rw [normalize, count_trim dark, replaceAll_eq,
    count_replaced steady_blanks1 taking_blanks1 blanks_over no_space, replaceAll_eq,
    count_replaced steady_decoration taking_decoration decoration_over (by simp)]

end Snapshot.DocComment

import Mathlib.Data.List.DropRight
import Snapshot.DocComment
import Snapshot.Proofs.Pattern.Replace

/-!
# The decoration of a comment

What is left of a comment's text without its decoration, told line by line: every line loses the
stars that lead it, and then the last one loses the stars that end it.
-/

namespace Snapshot.DocComment
open Pattern Text

def isSpaceOrTab (c : Char) : Bool := c == ' ' || c == '\t'

/-- The line behind its longest beginning that is a row of stars, each with any spaces and tabs
before it. -/
def dropStars (line : List Char) : List Char :=
  match _h : after? "*" (line.dropWhile isSpaceOrTab) with
  | some rest => dropStars rest
  | none => line
termination_by line.length
decreasing_by
  have star := congrArg List.length (after?_eq_some_iff.1 _h)
  have le := (List.dropWhile_suffix (p := isSpaceOrTab) (l := line)).length_le
  simp at star
  omega

theorem dropStars_suffix (line : List Char) : dropStars line <:+ line := by
  fun_induction dropStars line with
  | case1 line rest star ih =>
    exact ih.trans ((suffix_of_after? star).trans (List.dropWhile_suffix _))
  | case2 line => exact List.suffix_rfl

theorem after?_star_iff {s rest : List Char} :
    after? "*" (s.dropWhile isSpaceOrTab) = some rest ↔
      ∃ e, (∀ c ∈ e, isSpaceOrTab c = true) ∧ s = e ++ '*' :: rest := by
  rw [after?_eq_some_iff]
  constructor
  · intro h
    refine ⟨s.takeWhile isSpaceOrTab, fun c hc => List.mem_takeWhile_imp hc, ?_⟩
    calc s = s.takeWhile isSpaceOrTab ++ s.dropWhile isSpaceOrTab :=
          List.takeWhile_append_dropWhile.symm
      _ = s.takeWhile isSpaceOrTab ++ '*' :: rest := by rw [h]; rfl
  · rintro ⟨e, blank, rfl⟩
    exact List.dropWhile_append_of_pos blank

theorem dropStars_of_star {e rest : List Char} (h : ∀ c ∈ e, isSpaceOrTab c = true) :
    dropStars (e ++ '*' :: rest) = dropStars rest := by
  have star : after? "*" ((e ++ '*' :: rest).dropWhile isSpaceOrTab) = some rest :=
    after?_star_iff.2 ⟨e, h, rfl⟩
  rw [dropStars]
  split
  · rename_i found
    rw [Option.some.inj (star.symm.trans found)]
  · rename_i missed
    rw [star] at missed
    cases missed

theorem dropStars_of_no_star {s : List Char}
    (h : after? "*" (s.dropWhile isSpaceOrTab) = none) : dropStars s = s := by
  rw [dropStars]
  split
  · rename_i found
    rw [h] at found
    cases found
  · rfl

/-- The line before the stars that end it; the spaces and tabs behind them go with them. -/
def dropLastStars (line : List Char) : List Char :=
  if (line.rdropWhile isSpaceOrTab).getLast? = some '*' then
    (line.rdropWhile isSpaceOrTab).rdropWhile (· == '*')
  else line

def dropStarsAtEnd : List (List Char) → List (List Char)
  | [] => []
  | [line] => [dropLastStars line]
  | line :: lines => line :: dropStarsAtEnd lines

def undecorated (body : List Char) : List Char :=
  ['\n'].intercalate (dropStarsAtEnd ((body.splitOn '\n').map dropStars))

def isLastStars (s : List Char) : Bool :=
  s.head?.any (· == '*') && (s.dropWhile (· == '*')).all isSpaceOrTab

theorem steady_decoration : decoration.steady = true := rfl

theorem taking_decoration : decoration.nullable = false := rfl

theorem has_spaceOrTab : (CharSet.ofList [' ', '\t']).has = isSpaceOrTab := by
  funext c
  simp [CharSet.ofList, CharSet.has, has_single_eq, isSpaceOrTab]

section Pursue
variable {α : Type} {k : Stand → Option α}

theorem pursue_starred (x : Stand) :
    (seq spaceOrTab (word "*")).pursue x k =
      (after? "*" (x.1.after.dropWhile isSpaceOrTab)).bind fun rest => k (x.1.upto rest, x.2) := by
  have stop : Refuses (fun y => (word "*").pursue y k) (.ofList [' ', '\t']) := by
    apply refuses_pursue rfl
    intro c hc
    rw [has_spaceOrTab] at hc
    have other : c ≠ '*' := by
      rintro rfl
      revert hc
      decide
    exact Bool.eq_false_iff.2 fun h => other ((has_single '*' c).1 h)
  have suffix : x.1.after.dropWhile isSpaceOrTab <:+ x.1.after := List.dropWhile_suffix _
  rw [pursue_seq]
  refine (pursue_run_of_refuses stop x).trans ?_
  rw [has_spaceOrTab, pursue_word, Spot.after_upto suffix]
  apply Option.bind_congr
  intro rest hr
  rw [Spot.upto_upto suffix (suffix_of_after? hr)]

theorem pursue_row (x : Stand) :
    (star true (seq spaceOrTab (word "*"))).pursue x some =
      some (x.1.upto (dropStars x.1.after), x.2) := by
  generalize hs : x.1.after = s
  fun_induction dropStars s generalizing x with
  | case1 s rest star ih =>
    have suffix : rest <:+ x.1.after := hs ▸ (suffix_of_after? star).trans (List.dropWhile_suffix _)
    have further := ih (x.1.upto rest, x.2) (Spot.after_upto suffix)
    have inner : dropStars rest <:+ rest := dropStars_suffix rest
    rw [pursue_star rfl, pursue_starred, hs, star, Option.bind_some, further,
      Spot.upto_upto suffix inner]
    rfl
  | case2 s no_star =>
    rw [pursue_star rfl, pursue_starred, hs, no_star, ← hs, Spot.upto_after]
    rfl

theorem pursue_leading (x : Stand) :
    (seq (edge .lineStart) (many1 (seq spaceOrTab (word "*")))).pursue x some =
      if x.1.before.all (· == '\n') then
        (after? "*" (x.1.after.dropWhile isSpaceOrTab)).map fun rest =>
          (x.1.upto (dropStars rest), x.2)
      else none := by
  have row : (many1 (seq spaceOrTab (word "*"))).pursue x some =
      (after? "*" (x.1.after.dropWhile isSpaceOrTab)).map fun rest =>
        (x.1.upto (dropStars rest), x.2) := by
    refine (pursue_plus rfl true x).trans ?_
    rw [pursue_starred, Option.map_eq_bind]
    apply Option.bind_congr
    intro rest hr
    have suffix := (suffix_of_after? hr).trans (List.dropWhile_suffix isSpaceOrTab)
    rw [pursue_row, Spot.after_upto suffix, Spot.upto_upto suffix (dropStars_suffix rest)]
    rfl
  rw [pursue_seq, pursue_edge, row]
  rfl

theorem pursue_blankEnd (x : Stand) :
    (seq spaceOrTab (edge .textEnd)).pursue x some =
      if x.1.after.all isSpaceOrTab then some (x.1.upto [], x.2) else none := by
  have suffix : x.1.after.dropWhile isSpaceOrTab <:+ x.1.after := List.dropWhile_suffix _
  rw [pursue_seq]
  refine (pursue_run fun n hn _ => ?_).trans ?_
  · have first := head?_drop_any hn
    rw [← Spot.after_skip] at first
    rw [pursue_edge]
    refine if_neg fun ended => ?_
    rw [List.isEmpty_iff.1 ended] at first
    cases first
  · rw [has_spaceOrTab, pursue_edge, Spot.after_upto suffix]
    change (if (x.1.after.dropWhile isSpaceOrTab).isEmpty then _ else _) = _
    have ended : (x.1.after.dropWhile isSpaceOrTab).isEmpty = x.1.after.all isSpaceOrTab :=
      Bool.eq_iff_iff.2 (List.isEmpty_iff.trans
        (List.dropWhile_eq_nil_iff.trans List.all_eq_true.symm))
    rw [← ended]
    split
    · rename_i nothing
      rw [List.isEmpty_iff.1 nothing]
    · rfl

theorem pursue_trailing (x : Stand) :
    (seq (many1 (word "*")) (seq spaceOrTab (edge .textEnd))).pursue x some =
      if isLastStars x.1.after then some (x.1.upto [], x.2) else none := by
  have stop : Refuses (fun y => (seq spaceOrTab (edge .textEnd)).pursue y some)
      (.single '*') := by
    intro y hy
    rw [has_single_eq] at hy
    refine (pursue_blankEnd y).trans ?_
    cases hs : y.1.after with
    | nil => simp [hs] at hy
    | cons c rest =>
      obtain rfl : c = '*' := by simpa [hs] using hy
      rfl
  have suffix : x.1.after.dropWhile (· == '*') <:+ x.1.after := List.dropWhile_suffix _
  rw [pursue_seq]
  refine (pursue_run1_of_refuses stop x).trans ?_
  rw [has_single_eq, pursue_blankEnd, Spot.after_upto suffix,
    Spot.upto_upto suffix (List.nil_suffix)]
  unfold isLastStars
  cases x.1.after.head?.any (· == '*') <;> rfl

theorem matchAt_decoration (x : Spot) : decoration.matchAt x =
    ((if x.before.all (· == '\n') then
        (after? "*" (x.after.dropWhile isSpaceOrTab)).map fun rest => x.upto (dropStars rest)
      else none).or (if isLastStars x.after then some (x.upto []) else none)).map fun y =>
        Match.ofStand x.index (y, {}) := by
  rw [matchAt_eq_pursue steady_decoration]
  change ((alt (seq (edge .lineStart) (many1 (seq spaceOrTab (word "*"))))
    (seq (many1 (word "*")) (seq spaceOrTab (edge .textEnd)))).pursue (x, {}) some).map _ = _
  rw [pursue_alt, pursue_leading, pursue_trailing]
  cases x.before.all (· == '\n') <;>
    cases after? "*" (x.after.dropWhile isSpaceOrTab) <;>
    cases isLastStars x.after <;> rfl

end Pursue

def undecoratedBehind (s : List Char) : List Char :=
  match s.splitOn '\n' with
  | [] => []
  | line :: lines => ['\n'].intercalate (dropStarsAtEnd (line :: lines.map dropStars))

theorem no_break_of_blank {e : List Char} (h : ∀ c ∈ e, isSpaceOrTab c = true) :
    '\n' ∉ e ++ ['*'] := by
  intro mem
  rcases List.mem_append.1 mem with mem | mem
  · have blank := h _ mem
    revert blank
    decide
  · revert mem
    decide

theorem splitOn_dropStars {s first : List Char} {more : List (List Char)}
    (h : s.splitOn '\n' = first :: more) :
    (dropStars s).splitOn '\n' = dropStars first :: more := by
  fun_induction dropStars s generalizing first with
  | case1 s rest star ih =>
    obtain ⟨e, blank, rfl⟩ := after?_star_iff.1 star
    obtain ⟨first', more', parts⟩ := List.exists_cons_of_ne_nil (List.splitOn_ne_nil '\n' rest)
    rw [List.append_cons, splitOn_append (no_break_of_blank blank) parts, ← List.append_cons] at h
    obtain ⟨rfl, rfl⟩ := List.cons.inj h
    rw [ih parts, dropStars_of_star blank]
  | case2 s no_star =>
    have none_there : after? "*" (first.dropWhile isSpaceOrTab) = none := by
      cases star : after? "*" (first.dropWhile isSpaceOrTab) with
      | none => rfl
      | some rest =>
        obtain ⟨e, blank, rfl⟩ := after?_star_iff.1 star
        obtain ⟨t, rfl⟩ := prefix_of_splitOn h
        rw [after?_star_iff.2 ⟨e, blank, by rw [List.append_assoc]; rfl⟩] at no_star
        cases no_star
    rw [h, dropStars_of_no_star none_there]

theorem undecoratedBehind_eq {s line : List Char} {lines : List (List Char)}
    (h : s.splitOn '\n' = line :: lines) :
    undecoratedBehind s = ['\n'].intercalate (dropStarsAtEnd (line :: lines.map dropStars)) := by
  rw [undecoratedBehind, h]

theorem undecorated_eq (s : List Char) : undecorated s = undecoratedBehind (dropStars s) := by
  obtain ⟨line, lines, parts⟩ := List.exists_cons_of_ne_nil (List.splitOn_ne_nil '\n' s)
  rw [undecorated, undecoratedBehind_eq (splitOn_dropStars parts), parts, List.map_cons]

theorem intercalate_dropStarsAtEnd (line : List Char) {lines : List (List Char)}
    (h : lines ≠ []) : ['\n'].intercalate (dropStarsAtEnd (line :: lines)) =
      line ++ '\n' :: ['\n'].intercalate (dropStarsAtEnd lines) := by
  obtain ⟨next, more, rfl⟩ := List.exists_cons_of_ne_nil h
  cases more with
  | nil => simp [dropStarsAtEnd, List.intercalate_cons_cons]
  | cons last more => simp [dropStarsAtEnd, List.intercalate_cons_cons]

theorem undecoratedBehind_nil : undecoratedBehind [] = [] := by
  rw [undecoratedBehind_eq (List.splitOn_nil '\n')]
  rfl

theorem undecoratedBehind_break (s : List Char) :
    undecoratedBehind ('\n' :: s) = '\n' :: undecorated s := by
  have parts : ('\n' :: s).splitOn '\n' = [] :: s.splitOn '\n' := by
    rw [List.splitOn_cons_eq_if_modifyHead, if_pos (beq_self_eq_true _)]
  rw [undecoratedBehind_eq parts, intercalate_dropStarsAtEnd _ (by simp)]
  rfl

theorem rdropWhile_cons (p : Char → Bool) (c : Char) (s : List Char) :
    (c :: s).rdropWhile p =
      if s.rdropWhile p = [] then if p c then [] else [c] else c :: s.rdropWhile p := by
  unfold List.rdropWhile
  rw [List.reverse_cons, List.dropWhile_append]
  cases h : s.reverse.dropWhile p with
  | nil => cases hc : p c <;> simp [hc]
  | cons d t => simp

theorem rdropWhile_append_of_pos {p : Char → Bool} {s t : List Char} (h : ∀ c ∈ t, p c = true) :
    (s ++ t).rdropWhile p = s.rdropWhile p := by
  unfold List.rdropWhile
  rw [List.reverse_append, List.dropWhile_append_of_pos fun c hc => h c (List.mem_reverse.1 hc)]

theorem isLastStars_iff {s : List Char} : isLastStars s = true ↔
    s.rdropWhile isSpaceOrTab ≠ [] ∧ ∀ c ∈ s.rdropWhile isSpaceOrTab, c = '*' := by
  rw [isLastStars, Bool.and_eq_true, List.all_eq_true]
  constructor
  · rintro ⟨first, blank⟩
    have stars : ∀ c ∈ s.takeWhile (· == '*'), c = '*' :=
      fun c hc => by simpa using List.mem_takeWhile_imp hc
    have dark : isSpaceOrTab '*' = false := by decide
    have same : s.rdropWhile isSpaceOrTab = s.takeWhile (· == '*') := by
      conv_lhs => rw [← List.takeWhile_append_dropWhile (p := (· == '*')) (l := s)]
      rw [rdropWhile_append_of_pos blank, List.rdropWhile_eq_self_iff]
      intro filled
      rw [stars _ (List.getLast_mem filled), dark]
      exact Bool.false_ne_true
    rw [same]
    refine ⟨?_, stars⟩
    cases s with
    | nil => simp at first
    | cons c s =>
      obtain rfl : c = '*' := by simpa using first
      exact List.cons_ne_nil _ _
  · rintro ⟨filled, stars⟩
    have parts := List.rdropWhile_append_rtakeWhile (p := isSpaceOrTab) (l := s)
    obtain ⟨c, more, hs⟩ := List.exists_cons_of_ne_nil filled
    constructor
    · rw [← parts, hs, stars c (hs ▸ List.mem_cons_self)]
      rfl
    · rw [← parts, List.dropWhile_append_of_pos fun c hc => beq_iff_eq.2 (stars c hc)]
      exact fun c hc => List.mem_rtakeWhile_imp ((List.dropWhile_suffix _).subset hc)

theorem dropLastStars_cons (c : Char) (s : List Char) :
    dropLastStars (c :: s) = if isLastStars (c :: s) then [] else c :: dropLastStars s := by
  have last := isLastStars_iff (s := c :: s)
  rw [dropLastStars, dropLastStars]
  rw [rdropWhile_cons] at last ⊢
  cases kept : s.rdropWhile isSpaceOrTab with
  | nil =>
    rw [kept] at last
    cases hc : isSpaceOrTab c with
    | true => simp_all
    | false => by_cases star : c = '*' <;> simp_all
  | cons d more =>
    rw [kept, if_neg (List.cons_ne_nil d more)] at last
    have last : isLastStars (c :: s) = true ↔ c = '*' ∧ ∀ e ∈ d :: more, e = '*' :=
      last.trans ((and_iff_right (List.cons_ne_nil _ _)).trans List.forall_mem_cons)
    have stars : (d :: more).rdropWhile (· == '*') = [] ↔ ∀ e ∈ d :: more, e = '*' :=
      List.rdropWhile_eq_nil_iff.trans (by simp only [beq_iff_eq])
    rw [← stars] at last
    rw [if_neg (List.cons_ne_nil d more), List.getLast?_cons_cons]
    by_cases ends : (d :: more).getLast? = some '*'
    · rw [if_pos ends, if_pos ends, rdropWhile_cons]
      by_cases none_left : (d :: more).rdropWhile (· == '*') = []
      · by_cases star : c = '*'
        · rw [if_pos (last.2 ⟨star, none_left⟩)]
          simp [none_left, star]
        · simp [last, none_left, star]
      · simp [last, none_left]
    · have other : isLastStars (c :: s) = false := by
        refine Bool.eq_false_iff.2 fun h => ends ?_
        have filled := List.cons_ne_nil d more
        rw [List.getLast?_eq_some_getLast filled]
        exact congrArg some (stars.1 (last.1 h).2 _ (List.getLast_mem filled))
      rw [if_neg ends, if_neg ends, other]
      rfl

theorem isLastStars_of_break {s : List Char} (h : '\n' ∈ s) : isLastStars s = false := by
  refine Bool.eq_false_iff.2 fun last => ?_
  obtain ⟨-, blank⟩ := Bool.and_eq_true_iff.1 last
  rw [← List.takeWhile_append_dropWhile (p := (· == '*')) (l := s)] at h
  rcases List.mem_append.1 h with mem | mem
  · have star := List.mem_takeWhile_imp mem
    revert star
    decide
  · have space := List.all_eq_true.1 blank _ mem
    revert space
    decide

/-- One character is looked at after another, until there are only the stars that end the text. -/
theorem undecoratedBehind_cons (c : Char) (s : List Char) :
    undecoratedBehind (c :: s) = if isLastStars (c :: s) then []
      else c :: if c = '\n' then undecorated s else undecoratedBehind s := by
  by_cases hc : c = '\n'
  · subst hc
    rw [if_pos rfl, undecoratedBehind_break]
    rfl
  · obtain ⟨line, lines, parts⟩ := List.exists_cons_of_ne_nil (List.splitOn_ne_nil '\n' s)
    have parts' : (c :: s).splitOn '\n' = (c :: line) :: lines :=
      splitOn_append (e := [c]) (by simpa using Ne.symm hc) parts
    have whole : ['\n'].intercalate (s.splitOn '\n') = s := List.intercalate_splitOn '\n'
    rw [parts] at whole
    rw [if_neg hc, undecoratedBehind_eq parts', undecoratedBehind_eq parts]
    cases lines with
    | nil =>
      obtain rfl : line = s := by simpa using whole
      simp [dropStarsAtEnd, dropLastStars_cons]
    | cons next lines =>
      have inside : '\n' ∈ c :: s := by
        rw [← whole, List.intercalate_cons_cons]
        simp
      rw [isLastStars_of_break inside, List.map_cons,
        intercalate_dropStarsAtEnd _ (List.cons_ne_nil _ _),
        intercalate_dropStarsAtEnd _ (List.cons_ne_nil _ _)]
      rfl

theorem exists_row {s rest : List Char} (h : after? "*" (s.dropWhile isSpaceOrTab) = some rest) :
    ∃ pre, s = pre ++ '*' :: dropStars rest := by
  obtain ⟨e, -, rfl⟩ := after?_star_iff.1 h
  fun_induction dropStars rest generalizing e with
  | case1 line rest star ih =>
    obtain ⟨e', blank, rfl⟩ := after?_star_iff.1 star
    obtain ⟨pre, same⟩ := ih e' star
    exact ⟨e ++ '*' :: pre, by rw [same, List.append_assoc]; rfl⟩
  | case2 rest => exact ⟨e, rfl⟩

theorem replaced_of_no_row {x : Spot}
    (found : decoration.matchAt x = (if isLastStars x.after then some (x.upto []) else none).map
      fun y => Match.ofStand x.index (y, {}))
    (next : ∀ c rest, x.after = c :: rest → decoration.replaced [] x.next =
      if c = '\n' then undecorated rest else undecoratedBehind rest) :
    decoration.replaced [] x = undecoratedBehind x.after := by
  cases hx : x.after with
  | nil => rw [replaced_end steady_decoration taking_decoration hx, undecoratedBehind_nil]
  | cons c rest =>
    rw [hx] at found
    rw [undecoratedBehind_cons]
    split at found
    · rename_i last
      rw [if_pos last, replaced_of_upto steady_decoration taking_decoration found,
        replaced_end steady_decoration taking_decoration (Spot.after_upto List.nil_suffix)]
      rfl
    · rename_i more
      rw [if_neg more, replaced_of_none steady_decoration taking_decoration hx found,
        next c rest hx]

theorem replaced_decoration_eq (x : Spot) : decoration.replaced [] x =
    if x.before.all (· == '\n') then undecorated x.after else undecoratedBehind x.after := by
  induction hn : x.after.length using Nat.strong_induction_on generalizing x with
  | _ n ih =>
  subst hn
  have next : ∀ c rest, x.after = c :: rest → decoration.replaced [] x.next =
      if c = '\n' then undecorated rest else undecoratedBehind rest := by
    intro c rest hx
    obtain ⟨before, s, index⟩ := x
    obtain rfl : s = c :: rest := hx
    refine (ih rest.length (Nat.lt_succ_self _) ⟨some c, rest, index + 1⟩ rfl).trans ?_
    simp
  have found := matchAt_decoration x
  by_cases start : x.before.all (· == '\n') = true
  · rw [if_pos start, undecorated_eq]
    cases star : after? "*" (x.after.dropWhile isSpaceOrTab) with
    | none =>
      rw [star, Option.map_none, ite_self, Option.none_or] at found
      rw [dropStars_of_no_star star, replaced_of_no_row found next]
    | some rest =>
      obtain ⟨pre, parts⟩ := exists_row star
      obtain ⟨e, blank, line⟩ := after?_star_iff.1 star
      have suffix : dropStars rest <:+ x.after :=
        parts ▸ (List.suffix_cons _ _).trans (List.suffix_append pre _)
      have shorter : (dropStars rest).length < x.after.length := by
        rw [congrArg List.length parts, List.length_append, List.length_cons]
        omega
      have behind := ih _ ((Spot.after_upto suffix).symm ▸ shorter) (x.upto (dropStars rest)) rfl
      rw [Spot.before_upto parts, Spot.after_upto suffix] at behind
      rw [if_pos start, star] at found
      rw [replaced_of_upto steady_decoration taking_decoration found, behind, line,
        dropStars_of_star blank]
      rfl
  · rw [if_neg start, Option.none_or] at found
    rw [if_neg start, replaced_of_no_row found next]

/-- What the pattern leaves of a text is what is left line by line. -/
theorem replaceAll_decoration (body : List Char) :
    decoration.replaceAll [] body = undecorated body := replaced_decoration_eq ⟨none, body, 0⟩

end Snapshot.DocComment

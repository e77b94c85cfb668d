import Snapshot.Extraction
import Snapshot.Proofs.Comment.Blocks
import Snapshot.Proofs.Comment.Normal

/-!
# The comment before a declaration

A text is read from its beginning, so `/**` opens a comment wherever it stands, in a string too.
What a comment means for the declaration behind it depends on whether such a comment is still open
where it begins.
-/

namespace Snapshot.DocComment
open Text

/-- The text of the comment that is open at the end of a text. -/
def openTail? (s : List Char) : Option (List Char) :=
  match _opened : upTo? "/**" s with
  | none => none
  | some (_, r) =>
    match _closed : upTo? "*/" r with
    | none => some r
    | some (_, rest) => openTail? rest
termination_by s.length
decreasing_by exact length_lt_of_comment _opened _closed

def commentsAfter : Option (List Char) → List Char → List (List Char)
  | none, s => comments s
  | some t, s => within (t ++ s)

theorem openTail?_of_upTo?_eq_none {s : List Char} (h : upTo? "/**" s = none) :
    openTail? s = none := by
  rw [openTail?]
  split
  · rfl
  · rename_i opened
    simp [h] at opened

theorem openTail?_of_opened {s x r : List Char} (h : upTo? "/**" s = some (x, r)) :
    openTail? s = match upTo? "*/" r with
      | none => some r
      | some (_, rest) => openTail? rest := by
  rw [openTail?]
  split
  · rename_i unopened
    simp [h] at unopened
  · rename_i x' r' opened
    obtain ⟨-, rfl⟩ := Prod.mk.inj (Option.some.inj (h.symm.trans opened))
    split <;> simp_all

theorem upTo?_open_append {s t : List Char} (h : upTo? "/**" s = none) (ht : t.head? ≠ some '*') :
    upTo? "/**" (s ++ t) = (upTo? "/**" t).map fun found => (s ++ found.1, found.2) := by
  induction s with
  | nil => simp
  | cons c s ih =>
    have missed : after? "/**" (c :: s) = none := by
      cases hr : after? "/**" (c :: s) with
      | none => rfl
      | some r => simp [upTo?_of_after? hr] at h
    have missed_there : after? "/**" (c :: (s ++ t)) = none := by
      cases hr : after? "/**" (c :: (s ++ t)) with
      | none => rfl
      | some r =>
        -- The mark would have one of its stars, or both, in the second text.
        obtain ⟨rfl, hs⟩ : c = '/' ∧ s ++ t = '*' :: '*' :: r := by
          simpa using after?_eq_some_iff.1 hr
        rcases s with _ | ⟨a, _ | ⟨b, s⟩⟩
        · rw [List.nil_append] at hs
          exact absurd (by rw [hs]; rfl) ht
        · rw [List.singleton_append] at hs
          exact absurd (by rw [(List.cons.inj hs).2]; rfl) ht
        · obtain ⟨rfl, rfl, -⟩ : a = '*' ∧ b = '*' ∧ s ++ t = r := by simpa using hs
          have found : after? "/**" ('/' :: '*' :: '*' :: s) = some s := after?_eq_some_iff.2 rfl
          simp [found] at missed
    rw [upTo?_of_after?_eq_none missed, Option.map_eq_none_iff] at h
    rw [List.cons_append, upTo?_of_after?_eq_none missed_there, ih h, Option.map_map]
    rfl

theorem comments_append {s t : List Char} (ht : t.head? ≠ some '*') :
    comments (s ++ t) = comments s ++ commentsAfter (openTail? s) t := by
  -- The induction follows the comments of the first text. Only the last of them can be open.
  induction hn : s.length using Nat.strong_induction_on generalizing s with
  | _ n ih =>
  subst hn
  cases opened : upTo? "/**" s with
  | none =>
    rw [comments_of_upTo?_eq_none opened, openTail?_of_upTo?_eq_none opened, List.nil_append]
    exact comments_of_map (upTo?_open_append opened ht)
  | some found =>
    obtain ⟨x, r⟩ := found
    have opened_there := upTo?_append_right (by simp) opened t
    rw [comments_of_opened opened, comments_of_opened opened_there, openTail?_of_opened opened]
    cases closed : upTo? "*/" r with
    | none => rw [within_of_unclosed closed, List.nil_append, commentsAfter]
    | some found =>
      obtain ⟨body, rest⟩ := found
      have shorter := length_lt_of_comment opened closed
      rw [within_of_closed closed, within_of_closed (upTo?_append_right (by simp) closed t),
        ih _ shorter rfl, List.cons_append]

theorem unclosed_of_openTail? {s t : List Char} (h : openTail? s = some t) :
    upTo? "*/" t = none := by
  induction hn : s.length using Nat.strong_induction_on generalizing s with
  | _ n ih =>
  subst hn
  cases opened : upTo? "/**" s with
  | none => simp [openTail?_of_upTo?_eq_none opened] at h
  | some found =>
    obtain ⟨x, r⟩ := found
    rw [openTail?_of_opened opened] at h
    cases closed : upTo? "*/" r with
    | none =>
      rw [closed] at h
      obtain rfl := Option.some.inj h
      exact closed
    | some found =>
      obtain ⟨body, rest⟩ := found
      rw [closed] at h
      have shorter := length_lt_of_comment opened closed
      exact ih _ shorter h rfl

theorem comments_of_no_slash {s : List Char} (h : '/' ∉ s) : comments s = [] :=
  comments_of_upTo?_eq_none (upTo?_of_not_mem rfl h)

theorem openTail?_of_no_slash {s : List Char} (h : '/' ∉ s) : openTail? s = none :=
  openTail?_of_upTo?_eq_none (upTo?_of_not_mem rfl h)

theorem upTo?_close_append {body : List Char} (h : ¬ "*/".toList <:+: body) (rest : List Char) :
    upTo? "*/" (body ++ ("*/".toList ++ rest)) = some (body, rest) := by
  refine upTo?_append (by simp) ?_ rest
  rintro ⟨u, v, huv⟩
  rcases List.eq_nil_or_concat v with rfl | ⟨v, c, rfl⟩
  · have last := congrArg List.getLast? huv
    simp at last
  · refine h ⟨u, v, ?_⟩
    rw [List.concat_eq_append, ← List.append_assoc] at huv
    exact (List.append_inj' huv rfl).1

theorem close_infix_append {s t : List Char} (h : "*/".toList <:+: s ++ t) :
    "*/".toList <:+: s ∨ "*/".toList <:+: t ∨ s.getLast? = some '*' ∧ t.head? = some '/' := by
  induction s with
  | nil => exact .inr (.inl h)
  | cons c s ih =>
    rw [List.cons_append, List.infix_cons_iff] at h
    rcases h with ⟨r, hr⟩ | h
    · obtain ⟨rfl, behind⟩ : '*' = c ∧ '/' :: r = s ++ t := by simpa using hr
      cases s with
      | nil =>
        rw [List.nil_append] at behind
        exact .inr (.inr ⟨rfl, by rw [← behind]; rfl⟩)
      | cons d s =>
        obtain ⟨rfl, -⟩ := List.cons.inj behind
        exact .inl ⟨[], s, rfl⟩
    · rcases ih h with h | h | ⟨last, first⟩
      · exact .inl (List.infix_cons h)
      · exact .inr (.inl h)
      · have ne : s ≠ [] := by
          rintro rfl
          simp at last
        exact .inr (.inr ⟨by rw [List.getLast?_cons_of_ne_nil ne, last], first⟩)

def commented (body gap : List Char) : List Char :=
  "/**".toList ++ (body ++ ("*/".toList ++ gap))

theorem upTo?_open_commented (body gap : List Char) :
    upTo? "/**" (commented body gap) = some ([], body ++ ("*/".toList ++ gap)) :=
  upTo?_of_after? (after?_eq_some_iff.2 rfl)

theorem head?_commented (body gap : List Char) : (commented body gap).head? ≠ some '*' := by
  simp [commented]

section Commented
variable {body gap : List Char} (whole : ¬ "*/".toList <:+: body)
  (blank : ∀ c ∈ gap, isBlank c = true)
include whole blank

theorem comments_commented : comments (commented body gap) = [trim body] := by
  rw [comments_of_opened (upTo?_open_commented body gap),
    within_of_closed (upTo?_close_append whole gap),
    comments_of_no_slash (not_mem_of_blank isBlank_slash blank)]

theorem openTail?_commented : openTail? (commented body gap) = none := by
  rw [openTail?_of_opened (upTo?_open_commented body gap), upTo?_close_append whole gap]
  exact openTail?_of_no_slash (not_mem_of_blank isBlank_slash blank)

/-- Inside a comment that is still open the opening mark means nothing. -/
theorem within_commented {t : List Char} (unclosed : upTo? "*/" t = none)
    (no_star : t.getLast? ≠ some '*') (no_slash : body.head? ≠ some '/') :
    within (t ++ commented body gap) = [trim (t ++ ("/**".toList ++ body))] := by
  have clear : ¬ "*/".toList <:+: t ++ ("/**".toList ++ body) := by
    intro inside
    rcases close_infix_append inside with h | h | ⟨h, -⟩
    · exact (upTo?_eq_none_iff (by simp)).1 unclosed h
    · rcases close_infix_append h with h | h | ⟨-, h⟩
      · revert h
        decide
      · exact whole h
      · exact no_slash h
    · exact no_star h
  have closed := upTo?_close_append clear gap
  have parts : t ++ commented body gap = t ++ ("/**".toList ++ body) ++ ("*/".toList ++ gap) := by
    simp [commented]
  rw [parts, within_of_closed closed, comments_of_no_slash (not_mem_of_blank isBlank_slash blank)]

omit whole in
theorem no_star_behind_late {x r : List Char} (unopened : upTo? "/**" body = none)
    (late : upTo? "/**" (body ++ ("*/".toList ++ gap)) = some (x, r)) : '*' ∉ r := by
  have parts := eq_of_upTo? late
  have lengths := congrArg List.length parts
  have mark : "/**".toList.length = 3 := rfl
  have close : "*/".toList.length = 2 := rfl
  simp only [List.length_append, mark, close] at lengths
  have behind : r.length ≤ ('/' :: gap).length := by
    by_contra lt
    rw [List.length_cons] at lt
    have first : x ++ "/**".toList <+: body ++ ("*/".toList ++ gap) :=
      ⟨r, by rw [List.append_assoc, parts]⟩
    have inside : x ++ "/**".toList <+: body := by
      apply List.prefix_of_prefix_length_le first (List.prefix_append _ _)
      rw [List.length_append, mark]
      omega
    refine (upTo?_eq_none_iff (by simp)).1 unopened (List.IsInfix.trans ?_ inside.isInfix)
    exact (List.suffix_append x _).isInfix
  have rest : r <:+ '/' :: gap := by
    refine List.suffix_of_suffix_length_le (suffix_of_upTo? late) ?_ behind
    exact ⟨body ++ ['*'], by simp⟩
  intro star
  rcases List.mem_cons.1 (rest.subset star) with slash | star
  · exact absurd slash (by decide)
  · exact not_mem_of_blank isBlank_star blank star

theorem comments_body : comments (body ++ ("*/".toList ++ gap)) =
    match upTo? "/**" body with
    | none => []
    | some (_, r) => [trim r] := by
  cases opened : upTo? "/**" body with
  | some found =>
    obtain ⟨x, r⟩ := found
    have inner : ¬ "*/".toList <:+: r := fun h => whole (h.trans (suffix_of_upTo? opened).isInfix)
    rw [comments_of_opened (upTo?_append_right (by simp) opened _),
      within_of_closed (upTo?_close_append inner gap),
      comments_of_no_slash (not_mem_of_blank isBlank_slash blank)]
  | none =>
    cases late : upTo? "/**" (body ++ ("*/".toList ++ gap)) with
    | none => exact comments_of_upTo?_eq_none late
    | some found =>
      obtain ⟨x, r⟩ := found
      have no_star := no_star_behind_late blank opened late
      rw [comments_of_opened late, within_of_unclosed (upTo?_of_not_mem rfl no_star)]

theorem within_star_commented {t : List Char} (unclosed : upTo? "*/" (t ++ ['*']) = none) :
    within (t ++ ['*'] ++ commented body gap) = trim t ::
      match upTo? "/**" body with
      | none => []
      | some (_, r) => [trim r] := by
  have parts : t ++ ['*'] ++ commented body gap =
      t ++ ("*/".toList ++ (['*', '*'] ++ (body ++ ("*/".toList ++ gap)))) := by
    simp [commented]
  have early : ¬ "*/".toList <:+: t ++ "*/".toList.dropLast :=
    (upTo?_eq_none_iff (by simp)).1 unclosed
  have closed := upTo?_append (by simp) early (['*', '*'] ++ (body ++ ("*/".toList ++ gap)))
  have stars : comments (['*', '*'] ++ (body ++ ("*/".toList ++ gap))) =
      comments (body ++ ("*/".toList ++ gap)) :=
    comments_of_map (upTo?_append_of_not_mem rfl (by decide) _)
  rw [parts, within_of_closed closed, stars, comments_body whole blank]

end Commented

end Snapshot.DocComment

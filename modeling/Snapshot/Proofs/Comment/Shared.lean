import Snapshot.Proofs.Comment.Attribution
import Snapshot.Proofs.Declaration.Overlap

/-!
# One declaration under several kinds

A declaration may be found under several kinds, and not always from the same place on: a function
begins with `async`, a component behind it. Between the beginning of a declaration and its name
there are only words and blanks, so no comment ends there. What is said of a declaration is thus
told by the place of its name, which all kinds agree on.
-/

namespace Snapshot

namespace DocComment
open Text

theorem comments_append_of_plain {t : List Char} (slash : '/' ∉ t) (star : '*' ∉ t)
    (s : List Char) : comments (s ++ t) = comments s := by
  have head : t.head? ≠ some '*' := fun h => star (List.mem_of_head? h)
  rw [comments_append head]
  cases opened : openTail? s with
  | none => rw [commentsAfter, comments_of_no_slash slash, List.append_nil]
  | some u =>
    have unclosed : upTo? "*/" (u ++ t) = none := by
      have before := (upTo?_eq_none_iff (by simp)).1 (unclosed_of_openTail? opened)
      rw [upTo?_eq_none_iff (by simp)]
      intro inside
      rcases close_infix_append inside with h | h | ⟨-, h⟩
      · exact before h
      · exact slash (h.subset (by simp))
      · exact slash (List.mem_of_head? h)
    rw [commentsAfter, within_of_unclosed unclosed, List.append_nil]

end DocComment

namespace Kind
open DocComment Pattern Text

theorem LeadIn.exists_append {s named : List Char} (h : LeadIn s named) :
    ∃ lead, s = lead ++ named ∧ ∀ c ∈ lead, nameChar.has c = true ∨ isBlank c = true := by
  have parts : ∀ {w : String} {r : List Char}, w ∈ keywords ++ qualifiers →
      w.toList ++ r = (w.toList ++ r.takeWhile isBlank) ++ trimStart r ∧
        ∀ c ∈ w.toList ++ r.takeWhile isBlank, nameChar.has c = true ∨ isBlank c = true := by
    intro w r hw
    refine ⟨?_, fun c hc => ?_⟩
    · rw [List.append_assoc, trimStart, List.takeWhile_append_dropWhile]
    · rcases List.mem_append.1 hc with hc | hc
      · exact .inl (nameChar_of_mem_word hw hc)
      · exact .inr (List.mem_takeWhile_imp hc)
  induction h with
  | @keyword w r hw blank => exact ⟨_, parts (List.mem_append_left _ hw)⟩
  | @qualifier w r named hw blank behind ih =>
    obtain ⟨same, plain⟩ := parts (r := r) (List.mem_append_right _ hw)
    obtain ⟨lead, rest, further⟩ := ih
    refine ⟨w.toList ++ r.takeWhile isBlank ++ lead, ?_, fun c hc => ?_⟩
    · rw [same, rest, List.append_assoc _ lead]
    · exact (List.mem_append.1 hc).elim (plain c) (further c)

theorem textBefore_of_leadIn {text s named : List Char} (h : LeadIn s named) (hs : s <:+ text) :
    textBefore text (byteSize text - byteSize s) =
      textBefore text (byteSize text - byteSize named) := by
  obtain ⟨lead, rfl, plain⟩ := h.exists_append
  obtain ⟨pre, rfl⟩ := hs
  have dark : ∀ c, nameChar.has c = false → isBlank c = false → c ∉ lead := by
    intro c name blank hc
    rcases plain c hc with h | h
    · exact absurd h (Bool.eq_false_iff.1 name)
    · exact absurd h (Bool.eq_false_iff.1 blank)
  have slash : '/' ∉ lead := dark '/' (by decide) isBlank_slash
  have star : '*' ∉ lead := dark '*' (by decide) isBlank_star
  have before : byteSize (pre ++ (lead ++ named)) - byteSize (lead ++ named) = byteSize pre := by
    rw [byteSize_append, Nat.add_sub_cancel]
  have before_name : byteSize (pre ++ (lead ++ named)) - byteSize named =
      byteSize (pre ++ lead) := by
    rw [← List.append_assoc, byteSize_append, Nat.add_sub_cancel]
  rw [before, before_name, textBefore, textBefore, takeBytes?_byteSize, ← List.append_assoc,
    takeBytes?_byteSize, Option.bind_some, Option.bind_some, last?_eq, last?_eq,
    comments_append_of_plain slash star]

theorem describe_eq_wording_locate (k : Kind) (content : String) (start : Nat) :
    k.describe content.toList start = k.wording (locate content start).toList := by
  rw [describe_eq_wording, locate, String.toList_ofList]

/-- A match is told by the text from its name on: this text gives the comment before the match and
its name. -/
theorem exists_named_of_sights {k : Kind} (hk : k ≠ importClause) {content : String} {m : Match}
    {s : Sighting} (h : k.recognizer.Sights content m s) {name : Span}
    (hname : m.span? 1 = some name) :
    ∃ named, named <:+ content.toList ∧
      byteSize (content.toList.take name.start) = byteSize content.toList - byteSize named ∧
      s.name = nameOf named ∧ textBefore content.toList s.start =
        textBefore content.toList (byteSize content.toList - byteSize named) := by
  obtain ⟨hit, mem, rfl, rfl⟩ := (sights_iff hk).1 h
  obtain ⟨suffix, shape⟩ := of_mem_hits mem
  have way := (shape?_eq_some_iff.1 shape).1
  have inside := (suffix_of_named? way).trans suffix
  rw [span?_matchOf suffix shape] at hname
  obtain rfl := Option.some.inj hname
  exact ⟨hit.named, inside, byteSize_take inside, rfl,
    textBefore_of_leadIn (leadIn_of_named? way) suffix⟩

theorem suffix_eq_of_byteSize {text s t : List Char} (hs : s <:+ text) (ht : t <:+ text)
    (h : byteSize text - byteSize s = byteSize text - byteSize t) : s = t := by
  have same : byteSize s = byteSize t := by
    have := byteSize_le hs
    have := byteSize_le ht
    omega
  have part : ∀ {a b : List Char}, a <:+ b → byteSize a = byteSize b → a = b := by
    rintro a b ⟨d, rfl⟩ size
    cases d with
    | nil => rfl
    | cons c d =>
      have pos : 0 < c.utf8Size := c.utf8Size_pos
      simp only [List.cons_append, byteSize_cons, byteSize_append] at size
      omega
  rcases List.suffix_or_suffix_of_suffix hs ht with h | h
  · exact part h same
  · exact (part h same.symm).symm

theorem mem_listed {k : Kind} (hk : k ≠ importClause) {content : String} {m : Match}
    {s : Sighting} (h : k.recognizer.Sights content m s) (shown : k.accepts s.name = true)
    (path : String) :
    ⟨s.name, k.describe content.toList s.start⟩ ∈ (FileRecord.ofSource path content).listed k := by
  rw [FileRecord.listed_ofSource hk]
  exact List.mem_map.2
    ⟨s, List.mem_filter.2 ⟨Recognizer.mem_recognize.2 ⟨m, h⟩, shown⟩, rfl⟩

/-- Two matches whose names begin at the same offset have one name, and one comment stands before
both. Their records say what this comment says, or what is said of their kinds. -/
theorem locate_eq_of_same_name {j k : Kind} (hj : j ≠ importClause) (hk : k ≠ importClause)
    {content : String} {m n : Match} {s t : Sighting} (hs : j.recognizer.Sights content m s)
    (ht : k.recognizer.Sights content n t) {a b : Span} (ha : m.span? 1 = some a)
    (hb : n.span? 1 = some b)
    (same : byteSize (content.toList.take a.start) = byteSize (content.toList.take b.start))
    (path : String) :
    let comment := (locate content s.start).toList
    let record := FileRecord.ofSource path content
    locate content s.start = locate content t.start ∧ s.name = t.name ∧
      j.describe content.toList s.start = j.wording comment ∧
      k.describe content.toList t.start = k.wording comment ∧
      (j.accepts s.name = true → ⟨s.name, j.wording comment⟩ ∈ record.listed j) ∧
      (k.accepts t.name = true → ⟨t.name, k.wording comment⟩ ∈ record.listed k) := by
  intro comment record
  obtain ⟨u, hu, at_u, name, before⟩ := exists_named_of_sights hj hs ha
  obtain ⟨v, hv, at_v, name', before'⟩ := exists_named_of_sights hk ht hb
  obtain rfl : u = v := suffix_eq_of_byteSize hu hv (by rw [← at_u, ← at_v, same])
  have shared : locate content s.start = locate content t.start :=
    congrArg String.ofList (before.trans before'.symm)
  have said : j.describe content.toList s.start = j.wording comment :=
    describe_eq_wording_locate j content s.start
  have said' : k.describe content.toList t.start = k.wording comment := by
    rw [describe_eq_wording_locate, ← shared]
  refine ⟨shared, name.trans name'.symm, said, said', fun shown => ?_, fun shown => ?_⟩
  · rw [← said]
    exact mem_listed hj hs shown path
  · rw [← said']
    exact mem_listed hk ht shown path

/-- The function begins before `async` and the component behind it. -/
theorem locate_behind_async :
    let content := "/** D */ export async function A() \x7b"
    let m : Match := ⟨⟨9, 34⟩, ⟨[(1, 31)], [(1, ⟨31, 32⟩)]⟩⟩
    let n : Match := ⟨⟨22, 36⟩, ⟨[(1, 31)], [(1, ⟨31, 32⟩)]⟩⟩
    function.recognizer.Sights content m ⟨function, "A", 9, none⟩ ∧
      component.recognizer.Sights content n ⟨component, "A", 22, none⟩ ∧
      locate content 9 = locate content 22 ∧ locate content 9 = "D" := by
  intro content m n
  have hm : function.recognizer.Sights content m ⟨function, "A", 9, none⟩ :=
    ⟨by decide +kernel, by decide +kernel⟩
  have hn : component.recognizer.Sights content n ⟨component, "A", 22, none⟩ :=
    ⟨by decide +kernel, by decide +kernel⟩
  have shared := locate_eq_of_same_name (by decide) (by decide) hm hn rfl rfl rfl "a.ts"
  exact ⟨hm, hn, shared.1, by decide +kernel⟩

end Kind
end Snapshot

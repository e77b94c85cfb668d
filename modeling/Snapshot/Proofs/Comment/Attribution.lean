import Snapshot.Proofs.Comment.Nearest

/-!
# Which comment describes a declaration

A comment right before a declaration describes it unless another comment is still open where it
begins. Such a comment takes the opening mark for text: then the declaration is described by all
that stands behind the earlier mark, whatever that mark was meant for.
-/

namespace Snapshot

def Kind.wording (k : Kind) : List Char → String
  | [] => k.fallback
  | comment => String.ofList comment

def FileRecord.listed (r : FileRecord) : Kind → List Declaration
  | .function => r.functions
  | .component => r.components
  | .hook => r.hooks
  | .classDef => r.classes
  | .interface => r.interfaces
  | .decorator => r.decorators
  | .importClause => []

theorem FileRecord.listed_ofSource {k : Kind} (hk : k ≠ .importClause) (path content : String) :
    (FileRecord.ofSource path content).listed k = k.declarations content := by
  cases k with
  | importClause => exact absurd rfl hk
  | _ => rfl

namespace Kind
open DocComment Text

theorem wording_of_ne_nil {k : Kind} {comment : List Char} (h : comment ≠ []) :
    k.wording comment = String.ofList comment := by
  cases comment with
  | nil => exact absurd rfl h
  | cons c s => rfl

theorem describe_eq_wording (k : Kind) (text : List Char) (start : Nat) :
    k.describe text start = k.wording (textBefore text start) := by
  rw [describe]
  cases textBefore text start <;> rfl

theorem describe_eq (k : Kind) (s t : List Char) :
    k.describe (s ++ t) (byteSize s) =
      k.wording (((comments s).getLast?.map normalize).getD []) := by
  rw [describe_eq_wording, textBefore, takeBytes?_byteSize, Option.bind_some, last?_eq]

theorem describe_of_getLast? {k : Kind} {s comment : List Char}
    (h : (comments s).getLast? = some comment) (t : List Char) :
    k.describe (s ++ t) (byteSize s) = k.wording (normalize comment) := by
  rw [describe_eq, h, Option.map_some, Option.getD_some]

theorem no_slash_fallback (k : Kind) : '/' ∉ k.fallback.toList := by
  cases k <;> decide

theorem count_wording_le (k : Kind) (comment : List Char) :
    (k.wording comment).toList.count '/' ≤ comment.count '/' := by
  cases comment with
  | nil => rw [wording, List.count_eq_zero.2 k.no_slash_fallback, List.count_nil]
  | cons c s => rw [wording_of_ne_nil (List.cons_ne_nil c s), String.toList_ofList]

theorem count_slash (s : List Char) : (normalize (trim s)).count '/' = s.count '/' := by
  rw [count_normalize isBlank_slash (by decide), count_trim isBlank_slash]

theorem count_mark : "/**".toList.count '/' = 1 := by decide

section Commented
variable {k : Kind} {pre body gap rest : List Char} (whole : ¬ "*/".toList <:+: body)
  (no_slash : body.head? ≠ some '/') (blank : ∀ c ∈ gap, isBlank c = true)
include whole blank

theorem describe_commented (closed : openTail? pre = none) :
    k.describe (pre ++ commented body gap ++ rest) (byteSize (pre ++ commented body gap)) =
      k.wording (normalize (trim body)) := by
  refine describe_of_getLast? ?_ rest
  rw [comments_append (head?_commented body gap), closed, commentsAfter,
    comments_commented whole blank, List.getLast?_concat]

include no_slash in
theorem describe_commented_of_open {t : List Char} (opened : openTail? pre = some t)
    (no_star : t.getLast? ≠ some '*') :
    k.describe (pre ++ commented body gap ++ rest) (byteSize (pre ++ commented body gap)) =
      k.wording (normalize (trim (t ++ ("/**".toList ++ body)))) := by
  refine describe_of_getLast? ?_ rest
  rw [comments_append (head?_commented body gap), opened, commentsAfter,
    within_commented whole blank (unclosed_of_openTail? opened) no_star no_slash,
    List.getLast?_concat]

theorem describe_commented_of_star {t : List Char} (opened : openTail? pre = some (t ++ ['*'])) :
    k.describe (pre ++ commented body gap ++ rest) (byteSize (pre ++ commented body gap)) =
      k.wording (normalize (trim (match upTo? "/**" body with
        | none => t
        | some (_, r) => r))) := by
  refine describe_of_getLast? ?_ rest
  rw [comments_append (head?_commented body gap), opened, commentsAfter,
    within_star_commented whole blank (unclosed_of_openTail? opened)]
  cases upTo? "/**" body with
  | none => rw [List.getLast?_concat]
  | some found => rw [List.append_cons, List.getLast?_concat]

include no_slash in
theorem describe_ne_of_open {t : List Char} (opened : openTail? pre = some t)
    (no_star : t.getLast? ≠ some '*') :
    k.describe (pre ++ commented body gap ++ rest) (byteSize (pre ++ commented body gap)) ≠
      String.ofList (normalize (trim body)) := by
  rw [describe_commented_of_open whole no_slash blank opened no_star]
  have more : body.count '/' < (normalize (trim (t ++ ("/**".toList ++ body)))).count '/' := by
    rw [count_slash, List.count_append, List.count_append, count_mark]
    omega
  have filled : normalize (trim (t ++ ("/**".toList ++ body))) ≠ [] := by
    intro empty
    rw [empty, List.count_nil] at more
    exact Nat.not_lt_zero _ more
  rw [wording_of_ne_nil filled]
  intro same
  rw [String.ofList_injective same, count_slash] at more
  exact Nat.lt_irrefl _ more

theorem describe_ne_of_star {t : List Char} (opened : openTail? pre = some (t ++ ['*']))
    {x r : List Char} (inner : upTo? "/**" body = some (x, r)) :
    k.describe (pre ++ commented body gap ++ rest) (byteSize (pre ++ commented body gap)) ≠
      String.ofList (normalize (trim body)) := by
  rw [describe_commented_of_star whole blank opened, inner]
  intro same
  have le := k.count_wording_le (normalize (trim r))
  rw [same, String.toList_ofList, count_slash, count_slash, eq_of_upTo? inner, List.count_append,
    List.count_append, count_mark] at le
  omega

end Commented

/-- A comment right before a declaration describes it exactly if no other comment is open where it
begins. An open one that ends in the opening mark, with a star of its own and the slash of the mark,
is told of instead, so then the two have to say the same. -/
theorem describe_commented_iff {k : Kind} (hk : k ≠ importClause) {content : String}
    {pre body gap rest : List Char} {s : Sighting}
    (parts : content.toList = pre ++ commented body gap ++ rest)
    (whole : ¬ "*/".toList <:+: body) (no_slash : body.head? ≠ some '/')
    (blank : ∀ c ∈ gap, isBlank c = true) (found : s ∈ k.recognizer.recognize content)
    (start : s.start = byteSize (pre ++ commented body gap)) (accepted : k.accepts s.name = true)
    (said : normalize (trim body) ≠ []) (path : String) :
    ⟨s.name, k.describe content.toList s.start⟩ ∈ (FileRecord.ofSource path content).listed k ∧
      (k.describe content.toList s.start = String.ofList (normalize (trim body)) ↔
        openTail? pre = none ∨ ∃ t, openTail? pre = some (t ++ ['*']) ∧
          ¬ "/**".toList <:+: body ∧
          k.wording (normalize (trim t)) = String.ofList (normalize (trim body))) := by
  constructor
  · rw [FileRecord.listed_ofSource hk]
    exact List.mem_map.2 ⟨s, List.mem_filter.2 ⟨found, accepted⟩, rfl⟩
  rw [parts, start]
  cases opened : openTail? pre with
  | none =>
    rw [describe_commented whole blank opened, wording_of_ne_nil said]
    exact iff_of_true rfl (.inl rfl)
  | some u =>
    by_cases star : u.getLast? = some '*'
    · obtain ⟨t, rfl⟩ := List.getLast?_eq_some_iff.1 star
      cases inner : upTo? "/**" body with
      | none =>
        have unopened := (upTo?_eq_none_iff (by simp)).1 inner
        rw [describe_commented_of_star whole blank opened, inner]
        constructor
        · exact fun same => .inr ⟨t, rfl, unopened, same⟩
        · rintro (closed | ⟨t', same_tail, -, same⟩)
          · exact absurd closed (Option.some_ne_none _)
          · rwa [List.append_cancel_right (Option.some.inj same_tail)]
      | some found =>
        apply iff_of_false (describe_ne_of_star whole blank opened inner)
        rintro (closed | ⟨t', -, unopened, -⟩)
        · exact absurd closed (Option.some_ne_none _)
        · exact unopened (infix_of_upTo? inner)
    · apply iff_of_false (describe_ne_of_open whole no_slash blank opened star)
      rintro (closed | ⟨t', same_tail, -, -⟩)
      · exact absurd closed (Option.some_ne_none _)
      · exact star (by rw [Option.some.inj same_tail, List.getLast?_concat])

theorem describe_class_behind_comment :
    let pre := "/** A */\n".toList
    let body := " Doc ".toList
    let content := String.ofList (pre ++ commented body ['\n'] ++ "class C".toList)
    ⟨classDef, "C", 20, none⟩ ∈ classDef.recognizer.recognize content ∧
      ⟨"C", classDef.describe content.toList 20⟩ ∈ (FileRecord.ofSource "a.ts" content).classes ∧
      classDef.describe content.toList 20 = "Doc" := by
  intro pre body content
  have parts : content.toList = pre ++ commented body ['\n'] ++ "class C".toList :=
    String.toList_ofList
  have found : ⟨classDef, "C", 20, none⟩ ∈ classDef.recognizer.recognize content := by
    decide +kernel
  have blank : ∀ c ∈ ['\n'], isBlank c = true := List.all_eq_true.1 (by decide)
  have described := describe_commented_iff (by decide) parts (by decide) (by decide) blank
    found (by decide) (by decide) (by decide +kernel) "a.ts"
  exact ⟨found, described.1, (described.2.2 (.inl (by decide +kernel))).trans (by decide +kernel)⟩

/-- The glob in a string is taken for the beginning of a comment. -/
theorem describe_function_behind_glob :
    let pre := "const p = 'src/**';\n".toList
    let body := " Doc ".toList
    let content := String.ofList
      (pre ++ commented body ['\n'] ++ "export function f() \x7b\x7d".toList)
    ¬ "*/".toList <:+: body ∧ body.head? ≠ some '/' ∧ isBlank '\n' = true ∧
      ⟨function, "f", 31, none⟩ ∈ function.recognizer.recognize content ∧
      byteSize (pre ++ commented body ['\n']) = 31 ∧ function.accepts "f" = true ∧
      normalize (trim body) = "Doc".toList ∧
      (FileRecord.ofSource "a.ts" content).functions = [⟨"f", "'; /** Doc"⟩] :=
  ⟨by decide, by decide, by decide, by decide +kernel, by decide, by decide, by decide +kernel,
    by decide +kernel⟩

end Kind

end Snapshot

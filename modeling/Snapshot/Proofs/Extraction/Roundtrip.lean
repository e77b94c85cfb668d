import Snapshot.Proofs.Comment.Attribution
import Snapshot.Proofs.Extraction.Items

/-!
# Reading back what was written

The record of a source that was written item by item holds just the declarations that it was written
from, in their order, and each is described by the last comment before it.
-/

namespace Snapshot
open DocComment Text

theorem trim_spaced (s : List Char) : trim (' ' :: (s ++ [' '])) = trim s := by
  have start : trimStart (' ' :: (s ++ [' '])) = trimStart (s ++ [' ']) :=
    List.dropWhile_cons_of_pos isBlank_space
  rw [trim, start, trim]
  by_cases h : trimStart s = []
  · rw [trimStart_append_of_blank (trimStart_eq_nil_iff.1 h), h]
    decide
  · rw [trimStart_append h, trimEnd, List.reverse_append, List.reverse_singleton,
      List.singleton_append, List.dropWhile_cons_of_pos isBlank_space]
    rfl

namespace Item

theorem render_commented (d : Remark) :
    (remark d).render = commented (' ' :: (d.text ++ [' '])) ['\n'] := by
  have first : "/** ".toList = "/**".toList ++ [' '] := rfl
  have last : " */\n".toList = [' '] ++ ("*/".toList ++ ['\n']) := rfl
  simp only [render_remark, commented, first, last, List.append_assoc, List.cons_append,
    List.nil_append]

theorem whole_remark (d : Remark) : ¬ "*/".toList <:+: ' ' :: (d.text ++ [' ']) := fun inside =>
  d.plain "*/" List.mem_cons_self (Kind.infix_of_spaced (by decide) inside)

theorem blank_newline : ∀ c ∈ ['\n'], isBlank c = true := List.all_eq_true.1 (by decide)

theorem no_slash_declared (f : Form) (n : Name) : '/' ∉ (declared f n).render := by
  have word : '/' ∉ "export ".toList ++ f.word.toList ++ " ".toList := by cases f <;> decide
  have name : '/' ∉ n.chars := fun h => by
    have slash := Kind.nameChar_name n '/' h
    revert slash
    decide
  have tail : '/' ∉ f.tail.toList := by cases f <;> decide
  rw [render_declared, List.mem_append, List.mem_append, not_or, not_or]
  exact ⟨⟨word, name⟩, tail⟩

theorem comments_render (item : Item) :
    comments item.render = (item.remark?.map Remark.text).toList := by
  cases item with
  | remark d =>
    rw [render_commented, comments_commented (whole_remark d) blank_newline, trim_spaced,
      Remark.text, trim_joined d.filled]
    rfl
  | declared f n => exact comments_of_no_slash (no_slash_declared f n)

theorem openTail?_render (item : Item) : openTail? item.render = none := by
  cases item with
  | remark d =>
    rw [render_commented]
    exact openTail?_commented (whole_remark d) blank_newline
  | declared f n => exact openTail?_of_no_slash (no_slash_declared f n)

theorem head?_render (item : Item) (s : List Char) : (item.render ++ s).head? ≠ some '*' := by
  cases item with
  | remark d =>
    rw [render_commented, List.head?_append]
    simp [commented]
  | declared f n =>
    rw [Kind.declared_append]
    simp

end Item

theorem comments_render (items : List Item) :
    comments (render items) = (items.filterMap Item.remark?).map Remark.text := by
  induction items with
  | nil => exact comments_of_no_slash List.not_mem_nil
  | cons item items ih =>
    have first : (render items).head? ≠ some '*' := by
      cases items with
      | nil => simp [render]
      | cons item items => exact item.head?_render _
    rw [render_cons, comments_append first, item.openTail?_render, commentsAfter,
      item.comments_render, ih]
    cases item <;> rfl

namespace Kind

def records : Kind → Name → Bool
  | component, n => n.chars.head?.any capital.has
  | hook, n => startsLikeHook n.chars
  | decorator, n => n.chars.head?.any capital.has && endsLikeDecorator n.chars
  | _, n => n.chars.head?.any (· != '_')

def recorded? (k : Kind) : Item → Option Name
  | .remark _ => none
  | .declared f n => if k.form? = some f ∧ k.records n = true then some n else none

def declaration (k : Kind) (said : Option Remark) (n : Name) : Declaration :=
  ⟨String.ofList n.chars, said.elim k.fallback fun d => String.ofList d.text⟩

/-- What is recorded of a list of items, before which this has been said last. -/
def recorded (k : Kind) : Option Remark → List Item → List Declaration
  | _, [] => []
  | said, item :: items =>
    ((k.recorded? item).map (k.declaration said)).toList ++
      k.recorded (item.remark?.or said) items

theorem records_eq (k : Kind) (n : Name) :
    k.records n = (k.reads n && k.accepts (String.ofList n.chars)) := by
  obtain ⟨c, s, hs⟩ := List.exists_cons_of_ne_nil n.filled
  have hc := nameChar_name n c (by rw [hs]; exact List.mem_cons_self)
  have plain : capital.has c = true → c ≠ '_' := by
    rintro h rfl
    revert h
    decide
  cases k with
  | component => simpa [records, reads, accepts, hs, isUppercase_eq hc] using plain
  | hook =>
    have visible : startsLikeHook (c :: s) = true → c ≠ '_' ∧ startsLikeHook (c :: s) = true := by
      intro h
      obtain ⟨d, rest, same, -⟩ := (startsLikeHook_iff _).1 h
      exact ⟨by rw [(List.cons.inj same).1]; decide, h⟩
    simpa [records, reads, accepts, hs] using visible
  | decorator =>
    have visible : capital.has c = true → endsLikeDecorator (c :: s) = true → c ≠ '_' :=
      fun h _ => plain h
    simpa [records, reads, accepts, hs] using visible
  | function | classDef | interface | importClause => simp [records, reads, accepts, hs]

theorem recorded?_eq (k : Kind) (item : Item) :
    k.recorded? item = (k.met? item).filter fun n => k.accepts (String.ofList n.chars) := by
  cases item with
  | remark d => rfl
  | declared f n =>
    rw [recorded?, met?, records_eq]
    by_cases h : k.form? = some f ∧ k.reads n = true
    · simp [h, Option.filter]
    · have unread :
          ¬ (k.form? = some f ∧ (k.reads n && k.accepts (String.ofList n.chars)) = true) :=
        fun both => h ⟨both.1, (Bool.and_eq_true_iff.1 both.2).1⟩
      rw [if_neg h, if_neg unread]
      rfl

def lastRemark? (items : List Item) : Option Remark := (items.filterMap Item.remark?).getLast?

theorem lastRemark?_concat (items : List Item) (item : Item) :
    lastRemark? (items ++ [item]) = item.remark?.or (lastRemark? items) := by
  rw [lastRemark?, List.filterMap_append]
  cases item with
  | remark d => exact List.getLast?_concat
  | declared f n => exact congrArg List.getLast? (List.append_nil _)

theorem normalize_text (d : Remark) : normalize d.text = d.text :=
  normalize_joined d.filled d.first d.last

theorem text_ne_nil (d : Remark) : d.text ≠ [] := by
  obtain ⟨c, s, hs, -⟩ := exists_joined d.filled
  rw [Remark.text, hs]
  exact List.cons_ne_nil c s

theorem describe_render (k : Kind) (items : List Item) (t : List Char) :
    k.describe (render items ++ t) (byteSize (render items)) =
      (lastRemark? items).elim k.fallback fun d => String.ofList d.text := by
  rw [describe_eq, comments_render, List.getLast?_map, lastRemark?]
  cases (items.filterMap Item.remark?).getLast? with
  | none => rfl
  | some d =>
    rw [Option.map_some, Option.map_some, Option.getD_some, normalize_text,
      wording_of_ne_nil (text_ne_nil d)]
    rfl

theorem declarations_from (k : Kind) (before items : List Item) :
    ((k.scan (byteSize (render before)) (render items)).filter (k.accepts ·.1)).map
        (fun found => ⟨found.1, k.describe (render before ++ render items) found.2⟩) =
      k.recorded (lastRemark? before) items := by
  -- What was written before is general: places are counted from its beginning, and it describes.
  induction items generalizing before with
  | nil =>
    have empty : k.scan (byteSize (render before)) [] = [] := by rw [scan]
    exact congrArg (fun found => (List.filter _ found).map _) empty
  | cons item items ih =>
    have there : render before ++ render (item :: items) =
        render (before ++ [item]) ++ render items := by
      rw [render_concat, render_cons, List.append_assoc]
    have further := ih (before ++ [item])
    rw [← there, render_concat, byteSize_append, lastRemark?_concat] at further
    rw [render_cons, scan_item, List.filter_append, List.map_append, ← render_cons, further,
      recorded, recorded?_eq]
    congr 1
    have said := k.describe_render before (render (item :: items))
    cases k.met? item with
    | none => rfl
    | some n =>
      cases accepted : k.accepts (String.ofList n.chars) with
      | false => simp [accepted, Option.filter]
      | true => simp [accepted, said, declaration, Option.filter]

theorem recorded_importClause (said : Option Remark) (items : List Item) :
    importClause.recorded said items = [] := by
  induction items generalizing said with
  | nil => rfl
  | cons item items ih => cases item <;> exact ih _

end Kind

/-- The record of a written source holds the declarations that it was written from. -/
theorem listed_render (k : Kind) (path : String) (items : List Item) :
    (FileRecord.ofSource path (String.ofList (render items))).listed k = k.recorded none items := by
  by_cases hk : k = .importClause
  · rw [hk, Kind.recorded_importClause]
    rfl
  · rw [FileRecord.listed_ofSource hk, Kind.declarations, Kind.recognize_eq hk,
      String.toList_ofList, List.filter_map, List.map_map]
    exact k.declarations_from [] items

example :
    let said : Remark := ⟨["Says".toList, "hello".toList], ⟨by decide, by simp; decide⟩, by decide,
      by decide, by decide⟩
    let name : Name := ⟨"class".toList, by decide, by decide⟩
    Kind.function.recorded none [.declared .function name, .remark said, .declared .classDef name,
      .declared .function name] =
        [⟨"class", "No description available"⟩, ⟨"class", "Says hello"⟩] := by
  decide

end Snapshot

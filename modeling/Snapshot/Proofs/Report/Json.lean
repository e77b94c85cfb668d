import Mathlib.Data.List.Nodup
import Snapshot.Proofs.Json.Reading
import Snapshot.Report.Json

/-!
# Reports are read back

A report that was laid out as JSON is read back as the same report. A category is missing from the
object exactly when it is empty, and that is how a missing one is read.
-/

namespace Snapshot

namespace Json

theorem get?_of_mem {members : List (String × Json)} (distinct : (members.map (·.1)).Nodup)
    {key : String} {v : Json} (h : (key, v) ∈ members) : get? key members = some v := by
  induction members with
  | nil => cases h
  | cons m ms ih =>
    rw [List.map_cons, List.nodup_cons] at distinct
    rcases List.mem_cons.1 h with rfl | later
    · exact List.lookup_cons_self
    · have apart : key ≠ m.1 := fun same => distinct.1 (same ▸ List.mem_map_of_mem later)
      rw [get?, List.lookup_cons, beq_false_of_ne apart]
      exact ih distinct.2 later

def filled (lists : List (String × List Json)) : List (String × Json) :=
  (lists.filter (!·.2.isEmpty)).map fun (key, items) => (key, array items)

theorem keys_filled (lists : List (String × List Json)) :
    (filled lists).map (·.1) = (lists.filter (!·.2.isEmpty)).map (·.1) := by
  rw [filled, List.map_map]
  rfl

section Lists
variable {lists : List (String × List Json)} (distinct : (lists.map (·.1)).Nodup)
include distinct

theorem nodup_keys_filled : ((filled lists).map (·.1)).Nodup := by
  rw [keys_filled]
  exact distinct.sublist (List.filter_sublist.map _)

theorem get?_filled_nil {key : String} (h : (key, []) ∈ lists) :
    get? key (filled lists) = none := by
  rw [get?, List.lookup_eq_none_iff]
  intro m hm
  obtain ⟨⟨k, items⟩, hl, rfl⟩ := List.mem_map.1 hm
  obtain ⟨hl, some_items⟩ := List.mem_filter.1 hl
  refine bne_iff_ne.2 ?_
  rintro rfl
  have same := List.inj_on_of_nodup_map distinct h hl rfl
  rw [← (Prod.mk.inj same).2] at some_items
  exact Bool.noConfusion some_items

theorem get?_filled_of_ne_nil {key : String} {items : List Json} (h : (key, items) ∈ lists)
    (some_items : items ≠ []) : get? key (filled lists) = some (array items) := by
  refine get?_of_mem (nodup_keys_filled distinct) (List.mem_map.2 ⟨(key, items), ?_, rfl⟩)
  exact List.mem_filter.2 ⟨h, by simpa using some_items⟩

variable {α : Type} {read : Json → Option α} {write : α → Json}
  (inverse : ∀ x, read (write x) = some x)
include inverse

omit distinct in
theorem mapM_map_write (l : List α) : (l.map write).mapM read = some l := by
  induction l with
  | nil => rfl
  | cons x l ih =>
    rw [List.map_cons, List.mapM_cons, inverse, ih]
    rfl

theorem rows?_filled {key : String} {l : List α} (h : (key, l.map write) ∈ lists) :
    rows? read (get? key (filled lists)) = some l := by
  cases l with
  | nil =>
    rw [get?_filled_nil distinct h]
    rfl
  | cons x xs =>
    rw [get?_filled_of_ne_nil distinct h (by simp), rows?, mapM_map_write inverse]

end Lists

theorem Readable.nonempty {n : Nat} {lists : List (String × List Json)}
    (distinct : (lists.map (·.1)).Nodup) (h : ∀ l ∈ lists, ∀ x ∈ l.2, Readable n x) :
    Readable (n + 2) (nonempty lists) := by
  refine .object (fun m hm => ?_) (nodup_keys_filled distinct)
  obtain ⟨l, hl, rfl⟩ := List.mem_map.1 hm
  exact .array (h l (List.mem_filter.1 hl).1)

theorem Readable.strings {n : Nat} (fields : List (String × String))
    (distinct : (fields.map (·.1)).Nodup) :
    Readable (n + 1) (.object (fields.map fun (key, s) => (key, Json.string s))) := by
  refine .object (fun m hm => ?_) ?_
  · obtain ⟨f, -, rfl⟩ := List.mem_map.1 hm
    exact .string f.2
  · rwa [List.map_map]

end Json

open Json

theorem Entry.ofJson?_toJson (e : Entry) : ofJson? e.toJson = some e := rfl

theorem CoreModule.ofJson?_toJson (m : CoreModule) : ofJson? m.toJson = some m := rfl

theorem Entry.readable_toJson (e : Entry) : Readable 1 e.toJson :=
  .strings [("name", e.name), ("file", e.file), ("description", e.description)] (by simp)

theorem CoreModule.readable_toJson (m : CoreModule) : Readable 1 m.toJson :=
  .strings [("name", m.name), ("type", m.type), ("file", m.file), ("description", m.description)]
    (by simp)

namespace Report

def lists (r : Report) : List (String × List Json) :=
  [("core_modules", r.coreModules.map CoreModule.toJson),
   ("components", r.components.map Entry.toJson),
   ("hooks", r.hooks.map Entry.toJson),
   ("utilities", r.utilities.map Entry.toJson),
   ("types", r.types.map Entry.toJson)]

theorem toJson_eq (r : Report) : r.toJson = object (filled r.lists) := rfl

theorem nodup_keys_lists (r : Report) : (r.lists.map (·.1)).Nodup := by
  change ["core_modules", "components", "hooks", "utilities", "types"].Nodup
  decide

theorem readable_toJson (r : Report) : Readable 3 r.toJson := by
  refine .nonempty r.nodup_keys_lists fun l hl x hx => ?_
  have entries : ∀ es : List Entry, x ∈ es.map Entry.toJson → Readable 1 x := by
    intro es hx
    obtain ⟨e, -, rfl⟩ := List.mem_map.1 hx
    exact e.readable_toJson
  simp only [List.mem_cons, List.not_mem_nil, or_false] at hl
  rcases hl with rfl | rfl | rfl | rfl | rfl
  · obtain ⟨m, -, rfl⟩ := List.mem_map.1 hx
    exact m.readable_toJson
  all_goals exact entries _ hx

theorem ofJson?_toJson (r : Report) : ofJson? r.toJson = some r := by
  have rows {α : Type} {read : Json → Option α} {write : α → Json}
      (inverse : ∀ x, read (write x) = some x) {key : String} {l : List α}
      (h : (key, l.map write) ∈ r.lists) : rows? read (get? key (filled r.lists)) = some l :=
    rows?_filled r.nodup_keys_lists inverse h
  have coreModules : rows? CoreModule.ofJson? (get? "core_modules" (filled r.lists)) =
      some r.coreModules := rows CoreModule.ofJson?_toJson (by simp [lists])
  have components : rows? Entry.ofJson? (get? "components" (filled r.lists)) =
      some r.components := rows Entry.ofJson?_toJson (by simp [lists])
  have hooks : rows? Entry.ofJson? (get? "hooks" (filled r.lists)) = some r.hooks :=
    rows Entry.ofJson?_toJson (by simp [lists])
  have utilities : rows? Entry.ofJson? (get? "utilities" (filled r.lists)) =
      some r.utilities := rows Entry.ofJson?_toJson (by simp [lists])
  have types : rows? Entry.ofJson? (get? "types" (filled r.lists)) = some r.types :=
    rows Entry.ofJson?_toJson (by simp [lists])
  rw [ofJson?, toJson_eq]
  simp only [fields?, List.map_cons, List.map_nil, coreModules, components, hooks, utilities,
    types, Option.bind_eq_bind, Option.bind_some, Option.pure_def]

def categories (r : Report) : List String :=
  ([("core_modules", r.coreModules.isEmpty), ("components", r.components.isEmpty),
    ("hooks", r.hooks.isEmpty), ("utilities", r.utilities.isEmpty),
    ("types", r.types.isEmpty)].filter (!·.2)).map (·.1)

theorem keys_filled_lists (r : Report) : (filled r.lists).map (·.1) = r.categories := by
  have marked : r.lists.map (fun l => (l.1, l.2.isEmpty)) =
      [("core_modules", r.coreModules.isEmpty), ("components", r.components.isEmpty),
        ("hooks", r.hooks.isEmpty), ("utilities", r.utilities.isEmpty),
        ("types", r.types.isEmpty)] := by
    simp [lists]
  rw [keys_filled, categories, ← marked, List.filter_map, List.map_map]
  rfl

/-- No report is lost in its text, and the object in the text has the categories with entries as
its keys. -/
theorem ofText?_jsonText (r : Report) :
    ofText? r.jsonText = some r ∧
    ∃ members, read? r.jsonText.toList = some (.object members) ∧
      members.map (·.1) = r.categories := by
  have parsed : read? r.jsonText.toList = some (.object (filled r.lists)) := by
    rw [jsonText, String.toList_ofList, read?_pretty r.readable_toJson (by decide), toJson_eq]
  refine ⟨?_, _, parsed, r.keys_filled_lists⟩
  rw [ofText?, parsed, ← toJson_eq, Option.bind_some, ofJson?_toJson]

end Report

end Snapshot

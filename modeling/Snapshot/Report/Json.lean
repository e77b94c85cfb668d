import Snapshot.Declaration
import Snapshot.Json.Reader
import Snapshot.Report

/-!
# Records and reports as JSON

A report is an object with one member for each category that has entries. Reading takes an absent
category for an empty one, skips members it does not know, and refuses a value of another type. A
row may also be given as the list of its fields in order.
-/

namespace Snapshot

namespace Json

def get? (key : String) (members : List (String × Json)) : Option Json := members.lookup key

def string? : Json → Option String
  | string s => some s
  | _ => none

def row? (columns : List String) : Json → Option (List String)
  | object members => columns.mapM fun c => (get? c members).bind string?
  | array items => if items.length = columns.length then items.mapM string? else none
  | _ => none

def rows? {α : Type} (read : Json → Option α) : Option Json → Option (List α)
  | none => some []
  | some (array items) => items.mapM read
  | some _ => none

/-- The fields of an object, or of a list that gives them in order and may leave out the last. -/
def fields? (names : List String) : Json → Option (List (Option Json))
  | object members => some (names.map (get? · members))
  | array items =>
    if items.length ≤ names.length then
      some (items.map some ++ List.replicate (names.length - items.length) none)
    else none
  | _ => none

def nonempty (lists : List (String × List Json)) : Json :=
  object ((lists.filter (!·.2.isEmpty)).map fun (key, items) => (key, array items))

end Json

open Json

def Entry.toJson (e : Entry) : Json :=
  .object [("name", .string e.name), ("file", .string e.file),
    ("description", .string e.description)]

def Entry.ofJson? (j : Json) : Option Entry :=
  match row? ["name", "file", "description"] j with
  | some [name, file, description] => some ⟨name, file, description⟩
  | _ => none

def CoreModule.toJson (m : CoreModule) : Json :=
  .object [("name", .string m.name), ("type", .string m.type), ("file", .string m.file),
    ("description", .string m.description)]

def CoreModule.ofJson? (j : Json) : Option CoreModule :=
  match row? ["name", "type", "file", "description"] j with
  | some [name, type, file, description] => some ⟨name, type, file, description⟩
  | _ => none

def Declaration.ofJson? (j : Json) : Option Declaration :=
  match row? ["name", "description"] j with
  | some [name, description] => some ⟨name, description⟩
  | _ => none

def Import.ofJson? (j : Json) : Option Import :=
  match row? ["name", "source"] j with
  | some [name, source] => some ⟨name, source⟩
  | _ => none

def FileRecord.ofJson? (j : Json) : Option FileRecord :=
  match fields? ["path", "functions", "classes", "interfaces", "components", "hooks", "decorators",
      "imports"] j with
  | some [path, functions, classes, interfaces, components, hooks, decorators, imports] => do
    return {
      path := ← path.bind string?
      functions := ← rows? Declaration.ofJson? functions
      classes := ← rows? Declaration.ofJson? classes
      interfaces := ← rows? Declaration.ofJson? interfaces
      components := ← rows? Declaration.ofJson? components
      hooks := ← rows? Declaration.ofJson? hooks
      decorators := ← rows? Declaration.ofJson? decorators
      imports := ← rows? Import.ofJson? imports }
  | _ => none

namespace Report

def toJson (r : Report) : Json := nonempty
  [("core_modules", r.coreModules.map CoreModule.toJson),
   ("components", r.components.map Entry.toJson),
   ("hooks", r.hooks.map Entry.toJson),
   ("utilities", r.utilities.map Entry.toJson),
   ("types", r.types.map Entry.toJson)]

def ofJson? (j : Json) : Option Report :=
  match fields? ["core_modules", "components", "hooks", "utilities", "types"] j with
  | some [coreModules, components, hooks, utilities, types] => do
    return {
      coreModules := ← rows? CoreModule.ofJson? coreModules
      components := ← rows? Entry.ofJson? components
      hooks := ← rows? Entry.ofJson? hooks
      utilities := ← rows? Entry.ofJson? utilities
      types := ← rows? Entry.ofJson? types }
  | _ => none

def jsonText (r : Report) : String := String.ofList (r.toJson.pretty 0)

def ofText? (text : String) : Option Report := (read? text.toList).bind ofJson?

end Report

end Snapshot

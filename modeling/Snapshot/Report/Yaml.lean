import Snapshot.Report
import Snapshot.Yaml.Scalar

/-!
# Reports as YAML

One key for each category that has entries, and under it one list item for each entry.
-/

namespace Snapshot

def Entry.fields (e : Entry) : List (String × String) :=
  [("name", e.name), ("file", e.file), ("description", e.description)]

def CoreModule.fields (m : CoreModule) : List (String × String) :=
  [("name", m.name), ("type", m.type), ("file", m.file), ("description", m.description)]

namespace Report

open Yaml

def yamlField (lead key value : String) : String :=
  lead ++ key ++ ": " ++ String.ofList (scalarLine 4 value.toList)

def yamlItem : List (String × String) → String
  | [] => ""
  | (key, value) :: rest =>
    yamlField "- " key value ++ String.join (rest.map fun (k, v) => yamlField "  " k v)

def yamlCategory (key : String) (items : List (List (String × String))) : String :=
  if items.isEmpty then "" else key ++ ":\n" ++ String.join (items.map yamlItem)

def yamlText (r : Report) : String :=
  if r.isEmpty then "\x7b\x7d\n"
  else
    yamlCategory "core_modules" (r.coreModules.map CoreModule.fields) ++
    yamlCategory "components" (r.components.map Entry.fields) ++
    yamlCategory "hooks" (r.hooks.map Entry.fields) ++
    yamlCategory "utilities" (r.utilities.map Entry.fields) ++
    yamlCategory "types" (r.types.map Entry.fields)

end Report

end Snapshot

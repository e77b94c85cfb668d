import Snapshot.Declaration
import Snapshot.Report
import Snapshot.Text.Case

/-!
# Summaries

The declarations of all files are brought together in file order and sorted into categories.
Components, hooks and interfaces are listed as they are. A class is a core module once for each
keyword that occurs in its name or its path, whatever the case of the letters; likewise a function
is a utility.
-/

namespace Snapshot

structure Inventory where
  components : List Entry
  hooks : List Entry
  functions : List Entry
  classes : List Entry
  interfaces : List Entry
  deriving DecidableEq, Repr

def Declaration.inFile (file : String) (d : Declaration) : Entry := ⟨d.name, file, d.description⟩

def Inventory.ofRecords (records : List FileRecord) : Inventory where
  components := records.flatMap fun r => r.components.map (·.inFile r.path)
  hooks := records.flatMap fun r => r.hooks.map (·.inFile r.path)
  functions := records.flatMap fun r => r.functions.map (·.inFile r.path)
  classes := records.flatMap fun r => r.classes.map (·.inFile r.path)
  interfaces := records.flatMap fun r => r.interfaces.map (·.inFile r.path)

def Text.occursIn (piece : List Char) : List Char → Bool
  | [] => piece.isEmpty
  | c :: rest => piece.isPrefixOf (c :: rest) || occursIn piece rest

structure Keywords where
  coreModule : List String
  utility : List String
  deriving DecidableEq, Repr

namespace Keywords

def standard : Keywords where
  coreModule := ["loader", "registry", "store", "context", "provider"]
  utility := ["util", "helper", "format", "validate", "transform"]

/-- The number of keywords that occur in the name or in the path of an entry. -/
def hits (keywords : List String) (e : Entry) : Nat :=
  let name := Text.lowercase e.name.toList
  let file := Text.lowercase e.file.toList
  keywords.countP fun k =>
    let k := Text.lowercase k.toList
    Text.occursIn k name || Text.occursIn k file

end Keywords

def Report.ofRecords (k : Keywords) (records : List FileRecord) : Report :=
  let inv := Inventory.ofRecords records
  { coreModules := inv.classes.flatMap fun e =>
      List.replicate (Keywords.hits k.coreModule e) ⟨e.name, "class", e.file, e.description⟩
    components := inv.components
    hooks := inv.hooks
    utilities := inv.functions.flatMap fun e => List.replicate (Keywords.hits k.utility e) e
    types := inv.interfaces }

end Snapshot

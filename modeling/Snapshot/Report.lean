import Snapshot.Path

/-!
# Reports

A report lists the declarations of a project by category. A core module also names its type.
-/

namespace Snapshot

structure Entry where
  name : String
  file : String
  description : String
  deriving DecidableEq, Repr

structure CoreModule where
  name : String
  type : String
  file : String
  description : String
  deriving DecidableEq, Repr

def CoreModule.toEntry (m : CoreModule) : Entry := ⟨m.name, m.file, m.description⟩

structure Report where
  coreModules : List CoreModule := []
  components : List Entry := []
  hooks : List Entry := []
  utilities : List Entry := []
  types : List Entry := []
  deriving DecidableEq, Repr

namespace Report

def entryCount (r : Report) : Nat :=
  r.coreModules.length + r.components.length + r.hooks.length + r.utilities.length +
    r.types.length

def isEmpty (r : Report) : Bool := r.entryCount == 0

end Report

end Snapshot

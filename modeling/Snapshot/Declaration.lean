/-!
# Declarations of a source file

The seven kinds of declarations, and the record of those that one file holds.
-/

namespace Snapshot

inductive Kind
  | function
  | component
  | hook
  | classDef
  | interface
  | decorator
  | importClause
  deriving DecidableEq, Repr

namespace Kind

def all : List Kind :=
  [function, component, hook, classDef, interface, decorator, importClause]

def key : Kind → String
  | function => "functions"
  | component => "components"
  | hook => "hooks"
  | classDef => "classes"
  | interface => "interfaces"
  | decorator => "decorators"
  | importClause => "imports"

def fallback : Kind → String
  | function | classDef => "No description available"
  | component => "React component"
  | hook => "React hook"
  | interface => "TypeScript interface"
  | decorator => "Decorator function"
  | importClause => ""

def ofKey? (s : String) : Option Kind := all.find? (·.key == s)

end Kind

structure Declaration where
  name : String
  description : String
  deriving DecidableEq, Repr

structure Import where
  name : String
  source : String
  deriving DecidableEq, Repr

structure FileRecord where
  path : String
  functions : List Declaration := []
  classes : List Declaration := []
  interfaces : List Declaration := []
  components : List Declaration := []
  hooks : List Declaration := []
  decorators : List Declaration := []
  imports : List Import := []
  deriving DecidableEq, Repr

namespace FileRecord

def declarationCount (r : FileRecord) : Nat :=
  r.functions.length + r.classes.length + r.interfaces.length + r.components.length +
    r.hooks.length + r.decorators.length

/-- Whether the file declares anything; imports do not count. -/
def hasDeclarations (r : FileRecord) : Bool := decide (0 < r.declarationCount)

end FileRecord

end Snapshot

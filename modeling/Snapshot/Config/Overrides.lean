import Snapshot.Config
import Snapshot.Toml.Document

/-!
# Overrides

A TOML document may give eight settings. Each one given takes the place of the setting before; any
other key, or a value of another type, makes the document invalid.
-/

namespace Snapshot

structure Overrides where
  excludedDirs : Option (List String) := none
  sourceSuffixes : Option (List String) := none
  excludedSuffixes : Option (List String) := none
  coreModuleKeywords : Option (List String) := none
  utilityKeywords : Option (List String) := none
  ignorePatterns : Option (List String) := none
  respectGitignore : Option Bool := none
  errorPolicy : Option ErrorPolicy := none
  deriving DecidableEq, Repr

namespace Toml.Value

def string? : Value → Option String
  | string s => some s
  | _ => none

def strings? : Value → Option (List String)
  | array items => items.mapM string?
  | _ => none

def boolean? : Value → Option Bool
  | boolean b => some b
  | _ => none

def isEmpty : Value → Bool
  | array items => items.isEmpty
  | table _ entries => entries.isEmpty
  | _ => false

/-- The name of a policy, or a table in which it is the only key and has an empty value. -/
def errorPolicy? : Value → Option ErrorPolicy
  | string s => ErrorPolicy.ofName? s
  | table _ [(key, v)] => if v.isEmpty then ErrorPolicy.ofName? key else none
  | _ => none

end Toml.Value

namespace Overrides

def add (o : Overrides) : String × Toml.Value → Option Overrides
  | ("excluded_dirs", v) => v.strings?.map ({ o with excludedDirs := some · })
  | ("source_suffixes", v) => v.strings?.map ({ o with sourceSuffixes := some · })
  | ("excluded_suffixes", v) => v.strings?.map ({ o with excludedSuffixes := some · })
  | ("core_module_keywords", v) => v.strings?.map ({ o with coreModuleKeywords := some · })
  | ("utility_keywords", v) => v.strings?.map ({ o with utilityKeywords := some · })
  | ("ignore_patterns", v) => v.strings?.map ({ o with ignorePatterns := some · })
  | ("respect_gitignore", v) => v.boolean?.map ({ o with respectGitignore := some · })
  | ("on_unreadable", v) => v.errorPolicy?.map ({ o with errorPolicy := some · })
  | _ => none

def ofEntries? (es : Toml.Entries) : Option Overrides := es.foldlM add {}

def ofText? (text : String) : Option Overrides := (Toml.read? text.toList).bind ofEntries?

def apply (o : Overrides) (c : Config) : Config where
  root := c.root
  excludedDirs := o.excludedDirs.getD c.excludedDirs
  sourceSuffixes := o.sourceSuffixes.getD c.sourceSuffixes
  excludedSuffixes := o.excludedSuffixes.getD c.excludedSuffixes
  keywords := ⟨o.coreModuleKeywords.getD c.keywords.coreModule,
    o.utilityKeywords.getD c.keywords.utility⟩
  ignorePatterns := o.ignorePatterns.getD c.ignorePatterns
  respectGitignore := o.respectGitignore.getD c.respectGitignore
  errorPolicy := o.errorPolicy.getD c.errorPolicy

end Overrides

end Snapshot

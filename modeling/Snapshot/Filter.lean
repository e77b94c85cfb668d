import Snapshot.Config
import Snapshot.Disk
import Snapshot.Gitignore

/-!
# Filters

Which directories a scan enters and which files it takes. Suffixes and directory names are compared
with the last component of a path. Ignore patterns are matched with the path as it is written, and
the rules of the root's `.gitignore` with the path below the root.
-/

namespace Snapshot

structure FilterError where
  pattern : String
  fault : Glob.Fault
  deriving DecidableEq, Repr

namespace FilterError

def detail (e : FilterError) : String :=
  "error parsing glob '" ++ e.pattern ++ "': " ++ e.fault.message

def message (e : FilterError) : String := "Failed to build glob pattern: " ++ e.detail

end FilterError

structure Filter where
  excludedDirs : List String
  sourceSuffixes : List String
  excludedSuffixes : List String
  patterns : List Glob.Shape
  gitignore : Option Gitignore
  deriving DecidableEq, Repr

/-- The rules of the `.gitignore` file in a directory, if there is one; an unreadable one has
none. -/
def Disk.gitignore (d : Disk) (root : String) : Option Gitignore :=
  let path := Path.join root ".gitignore"
  if d.isThere path then
    match d.read path with
    | .ok content => some (.ofContent root content)
    | .error _ => some ⟨root, []⟩
  else none

namespace Filter

def compilePattern (pattern : String) : Except FilterError Glob.Shape :=
  (Glob.compile {} pattern).mapError (⟨pattern, ·⟩)

def ofConfig (d : Disk) (c : Config) : Except FilterError Filter := do
  return {
    excludedDirs := c.excludedDirs
    sourceSuffixes := c.sourceSuffixes
    excludedSuffixes := c.excludedSuffixes
    patterns := ← c.ignorePatterns.mapM compilePattern
    gitignore := if c.respectGitignore then d.gitignore c.root else none }

def ignores (f : Filter) (path : String) (isDir : Bool) : Bool :=
  f.patterns.any (·.acceptsPath path) || f.gitignore.any (·.ignores path isDir)

def excludesDir (f : Filter) (path : String) : Bool :=
  (Path.fileName? path).any (f.excludedDirs.contains ·) || f.ignores path true

def hasSuffix (name : String) (suffixes : List String) : Bool :=
  suffixes.any fun s => s.toList.isSuffixOf name.toList

def acceptsName (f : Filter) (name : String) : Bool :=
  hasSuffix name f.sourceSuffixes && !hasSuffix name f.excludedSuffixes

def acceptsFile (f : Filter) (path : String) : Bool :=
  (Path.fileName? path).any f.acceptsName && !f.ignores path false

end Filter

end Snapshot

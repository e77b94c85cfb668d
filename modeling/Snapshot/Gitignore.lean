import Snapshot.Glob.Basic
import Snapshot.Path
import Snapshot.Text.Blank

/-!
# Gitignore rules

Each line of a `.gitignore` file is a rule on the paths below its directory; the last rule that a
path meets decides. A line that begins with `!` takes a path back in, one that ends in a slash is
about directories only, and one without another slash applies at any depth. Lines that are no valid
globs are passed over. A path is judged alone: what its parents meet does not count.
-/

namespace Snapshot

structure IgnoreRule where
  shape : Glob.Shape
  negated : Bool
  dirsOnly : Bool
  deriving DecidableEq, Repr

namespace IgnoreRule

def globOptions : Glob.Options := ⟨true, true⟩

def dropSlash (glob : List Char) : List Char :=
  let short := glob.dropLast
  if short.getLast? == some '\\' then short.dropLast else short

def endsWith (s suffix_ : List Char) : Bool := suffix_.isSuffixOf s

/-- The glob for whole paths that a line means. -/
def wholeGlob (anchored : Bool) (glob : List Char) : List Char :=
  let dirs := "**/".toList
  let glob :=
    if anchored || glob.contains '/' || dirs.isPrefixOf glob || glob = ['*', '*'] then glob
    else dirs ++ glob
  if endsWith glob "/**".toList then glob ++ ['/', '*'] else glob

def ofGlob? (negated anchored : Bool) (glob : List Char) : Option IgnoreRule :=
  let dirsOnly := glob.getLast? == some '/'
  let glob := wholeGlob anchored (if dirsOnly then dropSlash glob else glob)
  match Glob.compile globOptions (String.ofList glob) with
  | .ok shape => some ⟨shape, negated, dirsOnly⟩
  | .error _ => none

/-- The rule of a line, if it is one. Blanks at the end do not count, unless the last of them is
escaped. -/
def ofLine? (line : List Char) : Option IgnoreRule :=
  if line.head? == some '#' then none
  else
    match (if endsWith line ['\\', ' '] then line else Text.trimEnd line) with
    | [] => none
    | '\\' :: '!' :: rest => ofGlob? false false ('!' :: rest)
    | '\\' :: '#' :: rest => ofGlob? false false ('#' :: rest)
    | '!' :: '/' :: rest => ofGlob? true true rest
    | '!' :: rest => ofGlob? true false rest
    | '/' :: rest => ofGlob? false true rest
    | glob => ofGlob? false false glob

end IgnoreRule

structure Gitignore where
  root : String
  rules : List IgnoreRule
  deriving DecidableEq, Repr

namespace Gitignore

def dropStart? (start : List Char) (s : List Char) : Option (List Char) :=
  if start.isPrefixOf s then some (s.drop start.length) else none

def dropReturn (line : List UInt8) : List UInt8 :=
  if line.getLast? == some 13 then line.dropLast else line

/-- The lines of a file up to the first that is not text. Byte order marks may stand first. -/
def linesOf (content : ByteArray) : List (List Char) :=
  let pieces := content.toList.splitOn 10
  let lines := pieces.dropLast.map dropReturn ++ pieces.getLast?.toList
  let texts := (lines.map fun line => String.fromUTF8? ⟨line.toArray⟩).takeWhile (·.isSome)
  match texts.filterMap fun t => t.map (·.toList) with
  | [] => []
  | first :: rest => first.dropWhile (· == '\ufeff') :: rest

def dotSlash : List Char := ['.', '/']

def ofContent (root : String) (content : ByteArray) : Gitignore where
  root := String.ofList ((dropStart? dotSlash root.toList).getD root.toList)
  rules := (linesOf content).filterMap IgnoreRule.ofLine?

def relative (g : Gitignore) (path : String) : String :=
  let path := (dropStart? dotSlash path.toList).getD path.toList
  if (Path.components g.root).isEmpty && g.root.toList.head? == some '.' || !path.contains '/' then
    String.ofList path
  else match dropStart? g.root.toList path with
    | some ('/' :: rest) => String.ofList rest
    | some rest => String.ofList rest
    | none => String.ofList path

def verdict? (g : Gitignore) (path : String) (isDir : Bool) : Option IgnoreRule :=
  let path := g.relative path
  g.rules.reverse.find? fun rule => (isDir || !rule.dirsOnly) && rule.shape.acceptsPath path

def ignores (g : Gitignore) (path : String) (isDir : Bool) : Bool :=
  (g.verdict? path isDir).any (!·.negated)

end Gitignore

end Snapshot

/-!
# Paths

A path is kept as it is written. Its components are the pieces between slashes, with empty pieces
and single dots left out.
-/

namespace Snapshot.Path

def pieces (path : String) : List String := (path.toList.splitOn '/').map String.ofList

def components (path : String) : List String :=
  (pieces path).filter fun piece => piece != "" && piece != "."

def fileName? (path : String) : Option String :=
  (components path).getLast?.filter (· != "..")

/-- The path of `name` in the directory `dir`; a `name` that begins with a slash stands alone. -/
def join (dir name : String) : String :=
  if dir.isEmpty || name.toList.head? == some '/' then name
  else if dir.toList.getLast? == some '/' then dir ++ name
  else dir ++ "/" ++ name

end Snapshot.Path

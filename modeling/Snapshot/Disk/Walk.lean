import Snapshot.Disk
import Snapshot.Text.Bytes

/-!
# Walks

The entries below a directory that are no directories themselves, depth first and in the order of
the names. A walk does not follow links, except at its start, and does not enter the directories
that `enter` refuses. Where a directory that is entered cannot be listed, the walk comes to a fault
in the place of its entries.
-/

namespace Snapshot

structure WalkFault where
  path : String
  fault : DiskFault
  deriving DecidableEq, Repr

/-- The bytes that the path of a directory to be listed may have. -/
def Path.maxSize : Nat := 4095

def Limits.listing (l : Limits) (place : List String) (path : String) : Option DiskFault :=
  if Path.maxSize < Text.byteSize path.toList then some .nameTooLong else l.reading place

def Limits.list (l : Limits) (place : List String) (path : String)
    (inside : List (Except WalkFault String)) : List (Except WalkFault String) :=
  match l.listing place path with
  | some fault => [.error ⟨path, fault⟩]
  | none => inside

namespace Listing

def walk (l : Limits) (enter : String → Bool) (place : List String) (path : String) :
    Listing → List (Except WalkFault String)
  | nil => []
  | file name _ rest | link name _ rest | sink name rest =>
    .ok (Path.join path name) :: rest.walk l enter place path
  | dir name entries rest =>
    (if enter (Path.join path name) then
      l.list (place ++ [name]) (Path.join path name)
        (entries.walk l enter (place ++ [name]) (Path.join path name))
    else []) ++ rest.walk l enter place path

end Listing

/-- What a walk from `root` comes to: `root` itself if it is no directory. -/
def Disk.walk (d : Disk) (enter : String → Bool) (root : String) :
    List (Except WalkFault String) :=
  match d.entry root false with
  | .error fault => [.error ⟨root, fault⟩]
  | .ok (place, .dir entries) =>
    d.limits.list place root (entries.walk d.limits enter place root)
  | .ok (_, .link _) =>
    match d.entry root with
    | .error fault => [.error ⟨root, fault⟩]
    | .ok (place, .dir entries) =>
      .ok root :: d.limits.list place root (entries.walk d.limits enter place root)
    | .ok _ => [.ok root]
  | .ok _ => [.ok root]

end Snapshot

import Snapshot.Disk.Walk
import Snapshot.Extraction
import Snapshot.Filter

/-!
# Scans

A scan goes along with a walk: it visits the accepted files and keeps the records of those that
declare something. A file that cannot be read as text ends the scan or is skipped, as the
configuration says. A directory that cannot be listed ends it in any case.
-/

namespace Snapshot

structure ScanStats where
  visited : Nat := 0
  extracted : Nat := 0
  retained : Nat := 0
  skipped : Nat := 0
  deriving DecidableEq, Repr

structure ReadError where
  path : String
  fault : DiskFault
  deriving DecidableEq, Repr

def ReadError.message (e : ReadError) : String :=
  "Failed to read " ++ e.path ++ ": " ++ e.fault.message

structure Scan where
  root : String
  files : List FileRecord := []
  stats : ScanStats := {}
  warnings : List ReadError := []
  deriving DecidableEq, Repr

inductive ScanError
  | walk (path : String) (fault : DiskFault)
  | filter (e : FilterError)
  | read (e : ReadError)
  deriving DecidableEq, Repr

namespace ScanError

def messages : ScanError → List String
  | walk path fault =>
    let detail := "IO error for operation on " ++ path ++ ": " ++ fault.message
    ["Failed to walk directory: " ++ detail, detail, fault.message]
  | filter e => ["Config error: " ++ e.message, e.message, e.detail]
  | read e => [e.message, e.fault.message]

def message (e : ScanError) : String := e.messages.headD ""

end ScanError

namespace Disk

def extract (d : Disk) (path : String) : Except ReadError FileRecord :=
  match d.readText path with
  | .ok content => .ok (.ofSource path content)
  | .error fault => .error ⟨path, fault⟩

/-- Whether a scan has to do with what the walk comes to: a file that it visits, or a fault. -/
def selects (d : Disk) (f : Filter) : Except WalkFault String → Bool
  | .ok path => d.isFile path && f.acceptsFile path
  | .error _ => true

def visits (d : Disk) (f : Filter) (root : String) : List (Except WalkFault String) :=
  (d.walk (!f.excludesDir ·) root).filter (d.selects f)

end Disk

namespace Scan

def add (s : Scan) (r : FileRecord) : Scan :=
  { s with
    files := if r.hasDeclarations then s.files ++ [r] else s.files
    stats := { s.stats with
      visited := s.stats.visited + 1
      extracted := s.stats.extracted + 1
      retained := if r.hasDeclarations then s.stats.retained + 1 else s.stats.retained } }

def addSkipped (s : Scan) (e : ReadError) : Scan :=
  { s with
    stats := { s.stats with visited := s.stats.visited + 1, skipped := s.stats.skipped + 1 }
    warnings := s.warnings ++ [e] }

def visit (d : Disk) (policy : ErrorPolicy) (s : Scan) (path : String) : Except ReadError Scan :=
  match d.extract path, policy with
  | .ok r, _ => .ok (s.add r)
  | .error e, .skip => .ok (s.addSkipped e)
  | .error e, .abort => .error e

def step (d : Disk) (policy : ErrorPolicy) (s : Scan) :
    Except WalkFault String → Except ScanError Scan
  | .ok path => (visit d policy s path).mapError .read
  | .error e => .error (.walk e.path e.fault)

end Scan

def Disk.scanWith (d : Disk) (f : Filter) (c : Config) : Except ScanError Scan :=
  (d.visits f c.root).foldlM (Scan.step d c.errorPolicy) { root := c.root }

def Disk.scan (d : Disk) (c : Config) : Except ScanError Scan := do
  let f ← (Filter.ofConfig d c).mapError .filter
  d.scanWith f c

def Disk.generate (d : Disk) (c : Config) : Except ScanError (Scan × Report) := do
  let s ← d.scan c
  return (s, Report.ofRecords c.keywords s.files)

end Snapshot

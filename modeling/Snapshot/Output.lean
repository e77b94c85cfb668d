import Snapshot.Disk
import Snapshot.Report.Json
import Snapshot.Report.Markdown
import Snapshot.Report.Yaml

/-!
# Snapshot files

A snapshot is two files in one directory: the report, then its rendering for reading. If the second
cannot be written, the first one stays.
-/

namespace Snapshot

inductive Format
  | json
  | yaml
  deriving DecidableEq, Repr

namespace Format

def name : Format → String
  | json => "json"
  | yaml => "yaml"

def ofName? : String → Option Format
  | "json" => some json
  | "yaml" => some yaml
  | _ => none

end Format

def Report.text (r : Report) : Format → String
  | .json => r.jsonText
  | .yaml => r.yamlText

structure SnapshotPaths where
  report : String
  markdown : String
  deriving DecidableEq, Repr

def SnapshotPaths.inDir (dir : String) (format : Format) : SnapshotPaths where
  report := Path.join dir ("project_snapshot." ++ format.name)
  markdown := Path.join dir "project_snapshot.md"

structure WriteError where
  path : String
  fault : DiskFault
  deriving DecidableEq, Repr

def WriteError.message (e : WriteError) : String :=
  "Failed to write " ++ e.path ++ ": " ++ e.fault.message

/-- Writes both files of a snapshot. The disk is given back in any case. -/
def Disk.writeSnapshot (d : Disk) (r : Report) (dir : String) (format : Format) :
    Disk × Except WriteError SnapshotPaths :=
  let paths := SnapshotPaths.inDir dir format
  match d.overwrite paths.report (r.text format).toUTF8 with
  | (d, .error fault) => (d, .error ⟨paths.report, fault⟩)
  | (d, .ok ()) =>
    match d.overwrite paths.markdown r.toMarkdown.toUTF8 with
    | (d, .error fault) => (d, .error ⟨paths.markdown, fault⟩)
    | (d, .ok ()) => (d, .ok paths)

end Snapshot

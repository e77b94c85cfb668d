import Snapshot.CommandLine
import Snapshot.Scan

/-!
# Runs

A run finds the root of a project, builds the configuration, scans, and writes the snapshot. It
stops at the first step that fails; only the last step changes the disk.
-/

namespace Snapshot

inductive RunError
  | path (text : String) (fault : DiskFault)
  | config (e : ConfigFileError)
  | scan (e : ScanError)
  | write (e : WriteError)
  deriving DecidableEq, Repr

namespace RunError

def context : RunError → String
  | path text _ => "Path does not exist: " ++ text
  | config e => "Failed to load config " ++ e.path
  | scan (.filter _) => "Failed to create scanner"
  | scan _ => "Failed to scan project"
  | write _ => "Failed to write snapshot"

def causes : RunError → List String
  | path _ fault => [fault.message]
  | config e => e.messages
  | scan e => e.messages
  | write e => [e.message, e.fault.message]

def causeText (number : Option Nat) (cause : String) : String :=
  let lines := (cause.toList.splitOn '\n').map String.ofList
  match number with
  | none => "\n    " ++ "\n    ".intercalate lines
  | some n =>
    let digits := toString n
    "\n" ++ "".pushn ' ' (5 - digits.length) ++ digits ++ ": " ++ "\n       ".intercalate lines

/-- The text of an error: what was being done, and the causes, numbered if there are several. -/
def report (e : RunError) : String :=
  let causes := match e.causes with
    | [cause] => [causeText none cause]
    | causes => causes.mapIdx fun n cause => causeText (some n) cause
  "Error: " ++ e.context ++ "\n\nCaused by:" ++ String.join causes

end RunError

structure Run where
  disk : Disk
  output : List String := []
  warnings : List ReadError := []
  error : Option RunError := none

def Disk.runConfig (d : Disk) (line : CommandLine) : Except RunError Config := do
  let root ← (d.canonical line.root).mapError (.path line.root)
  (d.config line root).mapError .config

def Disk.run (d : Disk) (line : CommandLine) : Run :=
  match d.canonical line.root with
  | .error fault => { disk := d, error := some (.path line.root fault) }
  | .ok root =>
    match d.config line root with
    | .error e => { disk := d, error := some (.config e) }
    | .ok c =>
      let start := "Scanning project in: " ++ root
      match Filter.ofConfig d c with
      | .error e => { disk := d, output := [start], error := some (.scan (.filter e)) }
      | .ok f =>
        match d.scanWith f c with
        | .error e => { disk := d, output := [start], error := some (.scan e) }
        | .ok scan =>
          let report := Report.ofRecords c.keywords scan.files
          match d.writeSnapshot report (line.outputDir.getD root) line.reportFormat with
          | (disk, .error e) =>
            { disk, output := [start], warnings := scan.warnings, error := some (.write e) }
          | (disk, .ok paths) =>
            { disk, warnings := scan.warnings
              output := [start, "Project snapshot written to: " ++ paths.report,
                "AI-friendly snapshot written to: " ++ paths.markdown] }

end Snapshot

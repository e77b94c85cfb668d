import Snapshot.Response

/-!
# The program

Puts the part of the file system that a command line speaks of on a disk, lets the run change that
disk, and writes the files that the run has written. A link is put on the disk as one to the
canonical path of what it leads to; one that leads nowhere is left out. A file that cannot be read
and a directory that cannot be listed are put there with the fault among the limits of the disk. If
a file cannot be written after all, the run is that of a disk which refuses it.
-/

namespace Snapshot

def DiskFault.ofError : IO.Error → DiskFault
  | .noFileOrDirectory .. => .notFound
  | .permissionDenied .. => .permissionDenied
  | e => .other e.toString

def Path.place (path : String) : List String := (Path.steps path).filter (· != ".")

namespace Disk

def orSame (d : Disk) (changed : Except DiskFault Disk) : Disk :=
  match changed with
  | .ok d => d
  | .error _ => d

def refuseReading (d : Disk) (place : List String) (fault : DiskFault) : Disk :=
  let reading := fun p => if p = place then some fault else d.limits.reading p
  { d with limits := { d.limits with reading } }

def refuseWriting (d : Disk) (place : List String) (fault : DiskFault) : Disk :=
  let writing := fun p => if p = place then some fault else d.limits.writing p
  { d with limits := { d.limits with writing } }

def see (d : Disk) (path : String) (full : Bool) : IO Disk := do
  let .ok real ← (IO.FS.realPath path).toBaseIO | return d
  let target := real.toString
  let d := d.orSame (d.makeParents target)
  let d ←
    if ← real.isDir then pure (d.orSame (d.makeDirs target))
    else if !full then pure (if d.isThere target then d else d.orSame (d.write target .empty))
    else match ← (IO.FS.readBinFile real).toBaseIO with
      | .ok content => pure (d.orSame (d.write target content))
      | .error e =>
        let d := if d.isThere target then d else d.orSame (d.write target .empty)
        pure (d.refuseReading (Path.place target) (.ofError e))
  return if target == path then d else d.orSame (d.makeLink path target)

def seeAlong (d : Disk) (path : String) : IO Disk := do
  let mut d := d
  let mut here := if Path.isAbsolute path then "/" else "."
  for step in Path.steps path do
    let .ok dir ← (IO.FS.realPath here).toBaseIO | return d
    if step != "." && step != ".." then
      d ← d.see (Path.join dir.toString step) true
    here := Path.join here step
  return d

/-- Sees all that a scan with the filter may come to below a directory. -/
partial def seeBelow (d : Disk) (f : Filter) (dir : String) : IO Disk := do
  let .ok real ← (IO.FS.realPath dir).toBaseIO | return d
  match ← real.readDir.toBaseIO with
  | .error e => return d.refuseReading (Path.place real.toString) (.ofError e)
  | .ok entries =>
    let mut d := d
    for entry in entries do
      let path := Path.join dir entry.fileName
      d ← d.see path (f.acceptsFile path)
      if let .ok (.dir _) := d.node path false then
        unless f.excludesDir path do
          d ← d.seeBelow f path
    return d

def seeFor (d : Disk) (line : CommandLine) : IO Disk := do
  let mut d ← d.seeAlong line.root
  if let some path := line.configFile then
    d ← d.seeAlong path
  let .ok c := d.runConfig line | return d
  let paths := line.outputPaths c.root
  for path in [Path.join c.root ".gitignore", paths.report, paths.markdown] do
    d ← d.seeAlong path
  let .ok f := Filter.ofConfig d c | return d
  d.seeBelow f c.root

/-- Writes a file as it stands on the disk; gives back the disk that refuses it if that fails. -/
def save (d : Disk) (path : String) : IO (Except Disk Unit) := do
  let .ok (place, node) := d.entry path | return .ok ()
  let some content := node.content? | return .ok ()
  match ← (IO.FS.writeBinFile path content).toBaseIO with
  | .ok () => return .ok ()
  | .error e => return .error (d.refuseWriting place (.ofError e))

end Disk

def Run.written (r : Run) (paths : SnapshotPaths) : List String :=
  match r.error with
  | none => [paths.report, paths.markdown]
  | some (.write e) => if e.path = paths.markdown then [paths.report] else []
  | some _ => []

def Response.show (r : Response) : IO UInt32 := do
  IO.print r.output
  for warning in r.warnings do
    IO.eprintln (" WARN " ++ warning)
  if let some error := r.error then
    IO.eprintln error
  return r.exitCode.toUInt32

def CommandLine.carryOut (line : CommandLine) (directory : String) : IO UInt32 := do
  let start : Disk := {}
  let inside := start.orSame ((start.makeDirs directory).bind (·.enter directory))
  let before ← inside.seeFor line
  let run := before.run line
  if let .ok c := before.runConfig line then
    for path in run.written (line.outputPaths c.root) do
      if let .error refusing ← run.disk.save path then
        return ← ({ before with limits := refusing.limits }.run line).response.show
  run.response.show

end Snapshot

open Snapshot in
def main (args : List String) : IO UInt32 := do
  match CommandLine.ofArguments args with
  | .ok line => line.carryOut (← IO.currentDir).toString
  | .error halt => (Halt.response {} halt).show

import Snapshot.Config.Overrides
import Snapshot.Disk

/-!
# Configuration files

A configuration file holds overrides, as a TOML text.
-/

namespace Snapshot

inductive ConfigFileError
  | unreadable (path : String) (fault : DiskFault)
  | invalid (path : String)
  deriving DecidableEq, Repr

namespace ConfigFileError

def path : ConfigFileError → String
  | unreadable path _ | invalid path => path

def messages : ConfigFileError → List String
  | unreadable _ fault => ["IO error: " ++ fault.message, fault.message]
  | invalid path =>
    let detail := "TOML parse error"
    ["Failed to parse config file " ++ path ++ ": " ++ detail, detail]

def message (e : ConfigFileError) : String := e.messages.headD ""

end ConfigFileError

def Disk.loadOverrides (d : Disk) (c : Config) (path : String) : Except ConfigFileError Config :=
  match d.readText path with
  | .error fault => .error (.unreadable path fault)
  | .ok text =>
    match Overrides.ofText? text with
    | some o => .ok (o.apply c)
    | none => .error (.invalid path)

end Snapshot

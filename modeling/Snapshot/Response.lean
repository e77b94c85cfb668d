import Snapshot.CommandLine.Reader
import Snapshot.Run

/-!
# Responses

What the user of the program gets to see: the text printed, the warnings, the report of an error,
and the exit code, which is 2 for arguments that are not understood and 1 for a run that failed.
-/

namespace Snapshot

structure Response where
  disk : Disk
  exitCode : Nat := 0
  output : String := ""
  warnings : List String := []
  error : Option String := none

def Run.response (r : Run) : Response where
  disk := r.disk
  exitCode := if r.error.isSome then 1 else 0
  output := String.join (r.output.map (· ++ "\n"))
  warnings := r.warnings.map ("Skipping unreadable file: " ++ ·.message)
  error := r.error.map (·.report)

def CommandLine.versionText : String := "snapshot 0.1.0\n"

def CommandLine.helpLines : List String := [
  "Write a condensed structure snapshot of a TypeScript/React project",
  "",
  "Usage: snapshot [OPTIONS] [PATH]",
  "",
  "Arguments:",
  "  [PATH]  Project root directory to scan [default: .]",
  "",
  "Options:",
  "  -f, --format <FORMAT>          " ++
    "Structured report format [default: json] [possible values: json, yaml]",
  "  -o, --output-dir <OUTPUT_DIR>  " ++
    "Directory for the snapshot files (defaults to the scanned root)",
  "      --config <CONFIG>          " ++
    "TOML file overriding exclusion lists and classification keywords",
  "      --ignore <IGNORE>          " ++
    "Additional ignore patterns (glob style)",
  "      --gitignore                " ++
    "Honor the root .gitignore",
  "      --skip-unreadable          " ++
    "Skip files that cannot be read as UTF-8 instead of aborting",
  "  -v, --verbose                  " ++
    "Show verbose progress",
  "  -h, --help                     " ++
    "Print help",
  "  -V, --version                  " ++
    "Print version"]

def CommandLine.helpText : String := String.join (helpLines.map (· ++ "\n"))

def Halt.complaint : Halt → String
  | .unknownArgument text => "error: unexpected argument '" ++ text ++ "' found"
  | .invalidValue s => "error: invalid value for '" ++ (Key.setting s).label ++ "'"
  | .repeated k => "error: the argument '" ++ k.label ++ "' cannot be used multiple times"
  | .unwantedValue w => "error: unexpected value for '" ++ (Key.switch w).label ++ "' found"
  | .help | .version => ""

def Halt.response (d : Disk) : Halt → Response
  | .help => { disk := d, output := CommandLine.helpText }
  | .version => { disk := d, output := CommandLine.versionText }
  | halt => { disk := d, exitCode := 2, error := some halt.complaint }

def Disk.respond (d : Disk) (args : List String) : Response :=
  match CommandLine.ofArguments args with
  | .ok line => (d.run line).response
  | .error halt => halt.response d

end Snapshot

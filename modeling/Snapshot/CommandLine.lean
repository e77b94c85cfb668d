import Snapshot.Config.File
import Snapshot.Output

/-!
# Command lines

What the arguments of a run can ask for. Every setting but `ignore` is given once at most, and every
switch is turned on once at most.
-/

namespace Snapshot

inductive Setting
  | path
  | format
  | outputDir
  | configFile
  | ignore
  deriving DecidableEq, Repr

inductive Switch
  | gitignore
  | skipUnreadable
  | verbose
  | help
  | version
  deriving DecidableEq, Repr

inductive Key
  | setting (s : Setting)
  | switch (w : Switch)
  deriving DecidableEq, Repr

namespace Key

def ofName? : String → Option Key
  | "format" => some (.setting .format)
  | "output-dir" => some (.setting .outputDir)
  | "config" => some (.setting .configFile)
  | "ignore" => some (.setting .ignore)
  | "gitignore" => some (.switch .gitignore)
  | "skip-unreadable" => some (.switch .skipUnreadable)
  | "verbose" => some (.switch .verbose)
  | "help" => some (.switch .help)
  | "version" => some (.switch .version)
  | _ => none

def ofLetter? : Char → Option Key
  | 'f' => some (.setting .format)
  | 'o' => some (.setting .outputDir)
  | 'v' => some (.switch .verbose)
  | 'h' => some (.switch .help)
  | 'V' => some (.switch .version)
  | _ => none

def label : Key → String
  | setting .path => "[PATH]"
  | setting .format => "--format <FORMAT>"
  | setting .outputDir => "--output-dir <OUTPUT_DIR>"
  | setting .configFile => "--config <CONFIG>"
  | setting .ignore => "--ignore <IGNORE>"
  | switch .gitignore => "--gitignore"
  | switch .skipUnreadable => "--skip-unreadable"
  | switch .verbose => "--verbose"
  | switch .help => "--help"
  | switch .version => "--version"

end Key

inductive Halt
  | unknownArgument (text : String)
  | invalidValue (s : Setting)
  | repeated (k : Key)
  | unwantedValue (w : Switch)
  | help
  | version
  deriving DecidableEq, Repr

structure CommandLine where
  path : Option String := none
  format : Option Format := none
  outputDir : Option String := none
  configFile : Option String := none
  ignore : List String := []
  gitignore : Bool := false
  skipUnreadable : Bool := false
  verbose : Bool := false
  deriving DecidableEq, Repr

namespace CommandLine

def root (line : CommandLine) : String := line.path.getD "."

def reportFormat (line : CommandLine) : Format := line.format.getD .json

def outputPaths (line : CommandLine) (root : String) : SnapshotPaths :=
  .inDir (line.outputDir.getD root) line.reportFormat

/-- The value of a setting that may be given once, when `old` was given before and `new` is what
the text says. -/
def fill {α : Type} (s : Setting) : Option α → Option α → Except Halt (Option α)
  | some _, _ => .error (.repeated (.setting s))
  | none, none => .error (.invalidValue s)
  | none, some a => .ok (some a)

def nonEmpty? (text : String) : Option String := if text.isEmpty then none else some text

def set (line : CommandLine) (s : Setting) (text : String) : Except Halt CommandLine :=
  match s with
  | .path => (fill s line.path (nonEmpty? text)).map ({ line with path := · })
  | .format => (fill s line.format (Format.ofName? text)).map ({ line with format := · })
  | .outputDir => (fill s line.outputDir (nonEmpty? text)).map ({ line with outputDir := · })
  | .configFile => (fill s line.configFile (nonEmpty? text)).map ({ line with configFile := · })
  | .ignore => .ok { line with ignore := line.ignore ++ [text] }

def turnOn (line : CommandLine) (w : Switch) : Except Halt CommandLine :=
  let once (isOn : Bool) (next : CommandLine) : Except Halt CommandLine :=
    if isOn then .error (.repeated (.switch w)) else .ok next
  match w with
  | .gitignore => once line.gitignore { line with gitignore := true }
  | .skipUnreadable => once line.skipUnreadable { line with skipUnreadable := true }
  | .verbose => once line.verbose { line with verbose := true }
  | .help => .error .help
  | .version => .error .version

def extend (line : CommandLine) (c : Config) : Config :=
  { c with
    ignorePatterns := c.ignorePatterns ++ line.ignore
    respectGitignore := c.respectGitignore || line.gitignore
    errorPolicy := if line.skipUnreadable then .skip else c.errorPolicy }

end CommandLine

def Disk.config (d : Disk) (line : CommandLine) (root : String) : Except ConfigFileError Config :=
  let standard : Config := { root }
  match line.configFile with
  | none => .ok (line.extend standard)
  | some path => (d.loadOverrides standard path).map line.extend

end Snapshot

import Snapshot.Main
import Snapshot.Pattern.Match.Start
import Snapshot.Pattern.Reader
import Snapshot.Proofs.Pattern.Ways
import Snapshot.Proofs.Pattern.Race
import Snapshot.Proofs.Pattern.Runs
import Snapshot.Proofs.Pattern.Replace
import Snapshot.Proofs.Pattern.Captures
import Snapshot.Proofs.Pattern.Language
import Snapshot.Proofs.Pattern.Coverage
import Snapshot.Proofs.Declaration.Shape
import Snapshot.Proofs.Declaration.Recognition
import Snapshot.Proofs.Declaration.Scan
import Snapshot.Proofs.Declaration.Inert
import Snapshot.Proofs.Declaration.Overlap
import Snapshot.Proofs.Recognizer.Sightings
import Snapshot.Proofs.Comment.Blocks
import Snapshot.Proofs.Comment.Decoration
import Snapshot.Proofs.Comment.Normal
import Snapshot.Proofs.Comment.Nearest
import Snapshot.Proofs.Comment.Attribution
import Snapshot.Proofs.Comment.Offset
import Snapshot.Proofs.Extraction.Items
import Snapshot.Proofs.Extraction.Roundtrip
import Snapshot.Proofs.Extraction.Invariant
import Snapshot.Proofs.Import.Clause
import Snapshot.Proofs.Import.Statements
import Snapshot.Proofs.Import.Scan
import Snapshot.Proofs.Disk.Entries
import Snapshot.Proofs.Disk.Resolve
import Snapshot.Proofs.Disk.Places
import Snapshot.Proofs.Disk.Writing
import Snapshot.Proofs.Disk.Storing
import Snapshot.Proofs.Disk.Removing
import Snapshot.Proofs.Scan.Visited
import Snapshot.Proofs.Scan.Rerun
import Snapshot.Proofs.Scan.Policies
import Snapshot.Proofs.Scan.Stricter
import Snapshot.Proofs.Output.Files
import Snapshot.Proofs.Run.Stages
import Snapshot.Proofs.Report.Lines
import Snapshot.Proofs.Json.Reading
import Snapshot.Proofs.Report.Json
import Snapshot.Proofs.Comment.Shared
import Snapshot.Proofs.Text.Case
import Snapshot.Proofs.Report.Summary
import Snapshot.Proofs.Report.Verbatim
import Snapshot.Proofs.Report.Relocation
import Snapshot.Proofs.Output.Frame
import Snapshot.Proofs.Yaml.Reading
import Snapshot.Proofs.Report.Yaml
import Snapshot.Proofs.CommandLine.Parts
import Snapshot.Proofs.CommandLine.Order
import Snapshot.Proofs.Toml.Spelling
import Snapshot.Proofs.Toml.Insertion
import Snapshot.Proofs.Config.Overrides

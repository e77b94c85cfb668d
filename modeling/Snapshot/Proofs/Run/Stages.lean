import Snapshot.Proofs.Output.Frame
import Snapshot.Proofs.Scan.Visited
import Snapshot.Response

/-!
# The stages of a run

A run goes through its stages by itself, but it comes to what the stages come to one after another:
the root, the configuration, the scan with its report, and the two files. It succeeds if all of them
do, and only the last changes the disk.
-/

namespace Snapshot

structure Disk.Completes (d : Disk) (line : CommandLine) (root : String) (c : Config) (scan : Scan)
    (report : Report) (d' : Disk) (paths : SnapshotPaths) : Prop where
  canonical : d.canonical line.root = .ok root
  config : d.config line root = .ok c
  generated : d.generate c = .ok (scan, report)
  written : d.writeSnapshot report (line.outputDir.getD root) line.reportFormat = (d', .ok paths)

structure Response.Failed (r : Response) (d : Disk) (output : String) : Prop where
  exitCode : r.exitCode = 1
  disk : r.disk = d
  output : r.output = output

namespace Disk

def scanningLine (root : String) : String := "Scanning project in: " ++ root

theorem run_eq (d : Disk) (line : CommandLine) : d.run line =
    match d.canonical line.root with
    | .error fault => { disk := d, error := some (.path line.root fault) }
    | .ok root =>
      match d.config line root with
      | .error e => { disk := d, error := some (.config e) }
      | .ok c =>
        match d.generate c with
        | .error e => { disk := d, output := [scanningLine root], error := some (.scan e) }
        | .ok (scan, report) =>
          match d.writeSnapshot report (line.outputDir.getD root) line.reportFormat with
          | (d', .error e) =>
            { disk := d', output := [scanningLine root], warnings := scan.warnings
              error := some (.write e) }
          | (d', .ok paths) =>
            { disk := d', warnings := scan.warnings
              output := [scanningLine root, "Project snapshot written to: " ++ paths.report,
                "AI-friendly snapshot written to: " ++ paths.markdown] } := by
  unfold run
  cases d.canonical line.root with
  | error fault => rfl
  | ok root =>
    dsimp only
    cases d.config line root with
    | error e => rfl
    | ok c =>
      dsimp only
      rw [generate_eq]
      cases Filter.ofConfig d c with
      | error e => rfl
      | ok f =>
        dsimp only
        cases d.scanWith f c with
        | error e => rfl
        | ok scan => rfl

section Run
variable {d d' : Disk} {line : CommandLine} {root : String} {c : Config}

theorem run_of_completes {scan : Scan} {report : Report} {paths : SnapshotPaths}
    (h : d.Completes line root c scan report d' paths) : d.run line =
      { disk := d', warnings := scan.warnings
        output := [scanningLine root, "Project snapshot written to: " ++ paths.report,
          "AI-friendly snapshot written to: " ++ paths.markdown] } := by
  rw [run_eq, h.canonical]
  simp only [h.config, h.generated, h.written]

theorem completes_of_run (h : (d.run line).error = none) :
    ∃ root c scan report d' paths, d.Completes line root c scan report d' paths := by
  rw [run_eq] at h
  cases canonical : d.canonical line.root with
  | error fault => simp [canonical] at h
  | ok root =>
    cases config : d.config line root with
    | error e => simp [canonical, config] at h
    | ok c =>
      rcases generated : d.generate c with e | ⟨scan, report⟩
      · simp [canonical, config, generated] at h
      · rcases written : d.writeSnapshot report (line.outputDir.getD root) line.reportFormat with
          ⟨d', e | paths⟩
        · simp [canonical, config, generated, written] at h
        · exact ⟨root, c, scan, report, d', paths, canonical, config, generated, written⟩

theorem filesAt_run (d : Disk) (line : CommandLine) :
    ∃ places, FilesAt places d (d.run line).disk ∧ ∀ p ∈ places, ∃ root,
      d.canonical line.root = .ok root ∧ (d.place? (line.outputPaths root).report = some p ∨
        d.place? (line.outputPaths root).markdown = some p) := by
  rw [run_eq]
  cases canonical : d.canonical line.root with
  | error fault => exact ⟨[], .refl d, by simp⟩
  | ok root =>
    dsimp only
    cases d.config line root with
    | error e => exact ⟨[], .refl d, by simp⟩
    | ok c =>
      dsimp only
      rcases d.generate c with e | ⟨scan, report⟩
      · exact ⟨[], .refl d, by simp⟩
      · dsimp only
        rcases written : d.writeSnapshot report (line.outputDir.getD root) line.reportFormat with
          ⟨d', result⟩
        obtain ⟨places, files, outputs⟩ := filesAt_of_writeSnapshot written
        refine ⟨places, ?_, fun p hp => ⟨root, rfl, outputs p hp⟩⟩
        cases result <;> exact files

end Run

theorem respond_of_parsed (d : Disk) {args : List String} {line : CommandLine}
    (parsed : CommandLine.ofArguments args = .ok line) :
    d.respond args = (d.run line).response := by
  rw [respond, parsed]

/-- A run of the program does what the stages do one after another: it succeeds exactly if they all
do, and then leaves what the last of them leaves and tells where. A run that fails before it writes
leaves the disk as it was. No run changes anything but what the output paths lead to. -/
theorem respond_stages (d : Disk) {args : List String} {line : CommandLine}
    (parsed : CommandLine.ofArguments args = .ok line) :
    ((d.respond args).exitCode = 0 ∨ (d.respond args).exitCode = 1) ∧
    ((d.respond args).exitCode = 0 ↔
      ∃ root c scan report d' paths, d.Completes line root c scan report d' paths) ∧
    (∀ root c scan report d' paths, d.Completes line root c scan report d' paths →
      (d.respond args).disk = d' ∧ (d.respond args).output = String.join
        [scanningLine root ++ "\n", "Project snapshot written to: " ++ paths.report ++ "\n",
          "AI-friendly snapshot written to: " ++ paths.markdown ++ "\n"]) ∧
    (∀ fault, d.canonical line.root = .error fault → (d.respond args).Failed d "") ∧
    (∀ root e, d.canonical line.root = .ok root → d.config line root = .error e →
      (d.respond args).Failed d "") ∧
    (∀ root c e, d.canonical line.root = .ok root → d.config line root = .ok c →
      d.generate c = .error e → (d.respond args).Failed d (scanningLine root ++ "\n")) ∧
    (d.respond args).disk.current = d.current ∧
    ∀ place, (∀ root, d.canonical line.root = .ok root →
        d.place? (line.outputPaths root).report ≠ some place ∧
          d.place? (line.outputPaths root).markdown ≠ some place) →
      (d.respond args).disk.root.shell? place = d.root.shell? place := by
  rw [d.respond_of_parsed parsed]
  obtain ⟨places, files, outputs⟩ := d.filesAt_run line
  refine ⟨?_, ⟨fun success => ?_, ?_⟩, ?_, ?_, ?_, ?_, files.current, fun place out => ?_⟩
  · rw [Run.response]
    cases (d.run line).error <;> simp
  · refine completes_of_run (Option.isNone_iff_eq_none.1 ?_)
    rw [Run.response] at success
    cases error : (d.run line).error with
    | none => rfl
    | some e => simp [error] at success
  · rintro ⟨root, c, scan, report, d', paths, h⟩
    rw [run_of_completes h]
    rfl
  · intro root c scan report d' paths h
    rw [run_of_completes h]
    exact ⟨rfl, rfl⟩
  · intro fault canonical
    rw [run_eq, canonical]
    exact ⟨rfl, rfl, rfl⟩
  · intro root e canonical config
    rw [run_eq, canonical]
    simp only [config]
    exact ⟨rfl, rfl, rfl⟩
  · intro root c e canonical config generated
    rw [run_eq, canonical]
    simp only [config, generated]
    exact ⟨rfl, rfl, by simp [Run.response, String.join]⟩
  · refine files.elsewhere place fun hp => ?_
    obtain ⟨root, canonical, report | markdown⟩ := outputs place hp
    · exact (out root canonical).1 report
    · exact (out root canonical).2 markdown

def datesText : String := "/** Formats a date. */ export function formatDate() {}"

def projectFiles : Listing :=
  .file "dates.ts" datesText.toUTF8 (.file "raw.ts" ⟨#[0xff]⟩ .nil)

def project : Disk where
  root := .dir "app" projectFiles .nil
  wellFormed :=
    ⟨by decide, by decide, ⟨by decide, by decide, by decide, by decide, trivial⟩, trivial⟩

def projectArguments : List String := ["-f", "yaml", "--skip-unreadable", "app"]

def projectLine : CommandLine where
  path := some "app"
  format := some .yaml
  skipUnreadable := true

def projectConfig : Config where
  root := "/app"
  errorPolicy := .skip

def projectScan : Scan where
  root := "/app"
  files := [.ofSource "/app/dates.ts" datesText]
  stats := ⟨2, 1, 1, 1⟩
  warnings := [⟨"/app/raw.ts", .invalidText⟩]

def projectText : String :=
  "utilities:\n- name: formatDate\n  file: /app/dates.ts\n  description: Formats a date.\n"

theorem lookup_project : project.lookup "app" = .ok (.found ["app"] (.dir projectFiles)) ∧
    project.lookup "/app" = .ok (.found ["app"] (.dir projectFiles)) ∧
    project.lookup "/app/dates.ts" =
      .ok (.found ["app", "dates.ts"] (.file datesText.toUTF8)) ∧
    project.lookup "/app/raw.ts" = .ok (.found ["app", "raw.ts"] (.file ⟨#[0xff]⟩)) := by
  refine ⟨?_, ?_, ?_, ?_⟩ <;>
    exact lookup_of_steps (by decide) (by decide) (by decide) rfl fun _ => Node.noConfusion

theorem place?_project :
    project.place? "/app/project_snapshot.yaml" = some ["app", "project_snapshot.yaml"] ∧
      project.place? "/app/project_snapshot.md" = some ["app", "project_snapshot.md"] := by
  have yaml : Path.steps "/app/project_snapshot.yaml" = ["app", "project_snapshot.yaml"] := by
    decide
  have md : Path.steps "/app/project_snapshot.md" = ["app", "project_snapshot.md"] := by decide
  constructor
  · refine place?_eq_some.2 ⟨.missing ["app"] "project_snapshot.yaml", ?_, rfl⟩
    rw [lookup, yaml]
    simp [resolve, Listing.node?, Listing.find?, project, projectFiles, Path.isAbsolute]
  · refine place?_eq_some.2 ⟨.missing ["app"] "project_snapshot.md", ?_, rfl⟩
    rw [lookup, md]
    simp [resolve, Listing.node?, Listing.find?, project, projectFiles, Path.isAbsolute]

theorem readText_project : project.readText "/app/dates.ts" = .ok datesText ∧
    project.readText "/app/raw.ts" = .error .invalidText := by
  obtain ⟨-, -, dates, raw⟩ := lookup_project
  have decoded : String.fromUTF8? datesText.toUTF8 = some datesText := by decide +kernel
  have broken : String.fromUTF8? ⟨#[0xff]⟩ = none := by decide +kernel
  refine ⟨readText_eq_ok.2 ⟨_, _, _, dates, rfl, rfl, decoded⟩, ?_⟩
  have content : project.read "/app/raw.ts" = .ok ⟨#[0xff]⟩ := by
    rw [read, entry_eq_ok.2 raw]
    rfl
  rw [readText, content]
  simp [broken, bind, Except.bind]

theorem visited_project :
    project.visited sampleFilter "/app" = .ok ["/app/dates.ts", "/app/raw.ts"] := by
  obtain ⟨-, root, dates, raw⟩ := lookup_project
  have walked : project.limits.list ["app"] "/app" (projectFiles.walk project.limits
      (!sampleFilter.excludesDir ·) ["app"] "/app") =
        [.ok "/app/dates.ts", .ok "/app/raw.ts"] := by
    decide +kernel
  have files : project.isFile "/app/dates.ts" = true ∧ project.isFile "/app/raw.ts" = true :=
    ⟨isFile_eq_true.2 ⟨_, node_eq_ok.2 ⟨_, dates⟩⟩, isFile_eq_true.2 ⟨_, node_eq_ok.2 ⟨_, raw⟩⟩⟩
  have accepted : sampleFilter.acceptsFile "/app/dates.ts" = true ∧
      sampleFilter.acceptsFile "/app/raw.ts" = true := by decide +kernel
  rw [visited_eq_ok, visits_of_dir (entry_eq_ok.2 root), walked]
  simp [selects, files, accepted]

theorem generate_project : project.generate projectConfig =
    .ok (projectScan, .ofRecords .standard projectScan.files) := by
  obtain ⟨dates, raw⟩ := readText_project
  have declares : (FileRecord.ofSource "/app/dates.ts" datesText).hasDeclarations = true := by
    decide +kernel
  refine generate_eq_ok.2 ⟨⟨sampleFilter, rfl⟩, ?_, rfl⟩
  rw [scan_of_visited (c := projectConfig) (f := sampleFilter) rfl visited_project]
  simp only [List.foldlM_cons, Scan.visit, extract, dates, raw, projectConfig]
  simp [bind, Except.bind, Scan.add, Scan.addSkipped, declares, projectScan, Except.mapError, pure,
    Except.pure]

theorem completes_project : ∃ d', FilesAt [["app", "project_snapshot.yaml"],
      ["app", "project_snapshot.md"]] project d' ∧
    project.Completes projectLine "/app" projectConfig projectScan
      (.ofRecords .standard projectScan.files) d'
      ⟨"/app/project_snapshot.yaml", "/app/project_snapshot.md"⟩ ∧
    d'.Shows "/app/project_snapshot.yaml" projectText := by
  obtain ⟨report, markdown⟩ := place?_project
  have nothing : ∀ place ∈ [["app", "project_snapshot.yaml"], ["app", "project_snapshot.md"]],
      ∀ node, project.root.node? place = some node → ∃ content, node = .file content := by
    simp [Listing.node?, Listing.find?, project, projectFiles]
  have paths : (⟨"/app/project_snapshot.yaml", "/app/project_snapshot.md"⟩ : SnapshotPaths) =
      .inDir "/app" .yaml := by decide
  obtain ⟨d', written, files, shows, -⟩ := exists_writeSnapshot paths rfl report markdown
    (by decide) nothing (.ofRecords .standard projectScan.files)
  have text : (Report.ofRecords .standard projectScan.files).text .yaml = projectText := by
    decide +kernel
  refine ⟨d', files, ⟨?_, rfl, generate_project, written⟩, text ▸ shows⟩
  change project.canonical "app" = _
  rw [canonical, entry_eq_ok.2 lookup_project.1]
  rfl

def shut : Disk where
  root := .dir "src" .nil .nil
  wellFormed := ⟨by decide, by decide, trivial, trivial⟩
  limits := { reading := fun place => if place = ["src"] then some .permissionDenied else none }

theorem lookup_shut (path : String) (steps : Path.steps path = ["."]) (filled : path ≠ "") :
    shut.lookup path = .ok (.found [] (.dir shut.root)) := by
  have top : shut.startOf path = [] := ite_self _
  rw [lookup_of_ne_empty filled, top, steps, resolve_here rfl, resolve]
  rfl

theorem generate_shut : shut.generate { root := "/" } =
    .error (.walk "/src" .permissionDenied) := by
  have walked : shut.limits.list [] "/" (shut.root.walk shut.limits
      (!sampleFilter.excludesDir ·) [] "/") = [.error ⟨"/src", .permissionDenied⟩] := by
    decide +kernel
  have visits : shut.visits sampleFilter "/" = [.error ⟨"/src", .permissionDenied⟩] := by
    rw [visits_of_dir (entry_eq_ok.2 (lookup_shut "/" (by decide) (by decide))), walked]
    rfl
  rw [generate_eq]
  change (shut.scanWith sampleFilter { root := "/" }).map _ = _
  rw [scanWith, visits]
  rfl

/-- One run writes a snapshot, although it cannot read all files; another one fails on its way
through the directories. -/
theorem respond_project : CommandLine.ofArguments projectArguments = .ok projectLine ∧
    (project.respond projectArguments).exitCode = 0 ∧
    (project.respond projectArguments).output = "Scanning project in: /app\n" ++
      "Project snapshot written to: /app/project_snapshot.yaml\n" ++
        "AI-friendly snapshot written to: /app/project_snapshot.md\n" ∧
    (project.respond projectArguments).disk.Shows "/app/project_snapshot.yaml"
      "utilities:\n- name: formatDate\n  file: /app/dates.ts\n  description: Formats a date.\n" ∧
    FilesAt [["app", "project_snapshot.yaml"], ["app", "project_snapshot.md"]] project
      (project.respond projectArguments).disk ∧
    CommandLine.ofArguments [] = .ok {} ∧
    (shut.respond []).Failed shut "Scanning project in: /\n" := by
  have parsed : CommandLine.ofArguments projectArguments = .ok projectLine := by rfl
  have parsed' : CommandLine.ofArguments [] = .ok {} := by rfl
  obtain ⟨d', files, h, shows⟩ := completes_project
  obtain ⟨-, success, written, -⟩ := respond_stages project parsed
  obtain ⟨disk, output⟩ := written _ _ _ _ _ _ h
  obtain ⟨-, -, -, -, -, fails, -⟩ := respond_stages shut parsed'
  have canonical : shut.canonical "." = .ok "/" := by
    rw [canonical, entry_eq_ok.2 (lookup_shut "." (by decide) (by decide))]
    rfl
  refine ⟨parsed, success.2 ⟨_, _, _, _, _, _, h⟩, output, ?_, ?_, parsed',
    fails _ _ _ canonical rfl generate_shut⟩
  · rw [disk]
    exact shows
  · rw [disk]
    exact files

end Disk

end Snapshot

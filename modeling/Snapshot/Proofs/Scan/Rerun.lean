import Snapshot.Proofs.Output.Frame
import Snapshot.Proofs.Scan.Visited

/-!
# Scanning again

The files of a snapshot may stand in the directory that is scanned. If the suffix rules reject their
names and no link leads to them, a scan after they were written comes to what it came to before.
-/

namespace Snapshot

def SnapshotPaths.names : List String :=
  ["project_snapshot.json", "project_snapshot.yaml", "project_snapshot.md"]

theorem SnapshotPaths.fileName?_inDir (dir : String) (format : Format) :
    ∃ name ∈ names, Path.fileName? (inDir dir format).report = some name ∧
      Path.fileName? (inDir dir format).markdown = some "project_snapshot.md" ∧
        name ≠ "project_snapshot.md" := by
  have markdown : Path.fileName? (inDir dir format).markdown = some "project_snapshot.md" :=
    Path.fileName?_join dir (by decide)
  cases format with
  | json =>
    exact ⟨"project_snapshot.json", by decide, Path.fileName?_join dir (by decide), markdown,
      by decide⟩
  | yaml =>
    exact ⟨"project_snapshot.yaml", by decide, Path.fileName?_join dir (by decide), markdown,
      by decide⟩

/-- The suffix rules accept none of the names that files of a snapshot have. -/
def Filter.RejectsSnapshots (f : Filter) : Prop :=
  ∀ name ∈ SnapshotPaths.names, f.acceptsName name = false

theorem Filter.fileName?_ne_of_acceptsFile {f : Filter} (rejects : f.RejectsSnapshots)
    {path : String} (accepted : f.acceptsFile path = true) :
    ∀ name ∈ SnapshotPaths.names, Path.fileName? path ≠ some name := by
  intro name known named
  rw [acceptsFile, named, Option.any_some, rejects name known, Bool.false_and] at accepted
  cases accepted

theorem Filter.rejectsSnapshots_of_ofConfig {d : Disk} {c : Config} {f : Filter}
    (hf : Filter.ofConfig d c = .ok f) (rejects : ∀ name ∈ SnapshotPaths.names,
      (hasSuffix name c.sourceSuffixes && !hasSuffix name c.excludedSuffixes) = false) :
    f.RejectsSnapshots := by
  obtain ⟨patterns, -, rfl⟩ := ofConfig_eq_ok.1 hf
  exact rejects

namespace Listing

theorem valid_of_entry {es : Listing} (h : es.WellFormed) {names : List String}
    (entry : ∃ node, es.node? names = some node ∧ node.isDir = false) :
    names ≠ [] ∧ ∀ n ∈ names, ValidName n := by
  obtain ⟨node, hnode, no_dir⟩ := entry
  refine ⟨?_, validName_of_node? h hnode⟩
  rintro rfl
  rw [← Option.some.inj hnode] at no_dir
  cases no_dir

end Listing

namespace Disk

structure Apart (d : Disk) (places : List (List String)) : Prop where
  unlinked : ∀ p ∈ places, d.Unlinked p
  named : ∀ p ∈ places, ∃ name ∈ SnapshotPaths.names, p.getLast? = some name

theorem foldlM_visit_congr {d d' : Disk} {policy : ErrorPolicy} {paths : List String}
    (same : ∀ path ∈ paths, d'.extract path = d.extract path) (s : Scan) :
    paths.foldlM (Scan.visit d' policy) s = paths.foldlM (Scan.visit d policy) s := by
  induction paths generalizing s with
  | nil => rfl
  | cons path paths ih =>
    rw [List.forall_mem_cons] at same
    have step : Scan.visit d' policy s path = Scan.visit d policy s path := by
      unfold Scan.visit
      rw [same.1]
    rw [List.foldlM_cons, List.foldlM_cons, step]
    exact bind_congr (ih same.2)

theorem selected_of_mem_visited {d : Disk} {f : Filter} {root path : String} {paths : List String}
    (hv : d.visited f root = .ok paths) (hp : path ∈ paths) :
    d.isFile path = true ∧ f.acceptsFile path = true := by
  have come : .ok path ∈ d.visits f root := by
    rw [visited_eq_ok.1 hv]
    exact List.mem_map_of_mem hp
  exact Bool.and_eq_true_iff.1 (List.mem_filter.1 come).2

section Rerun
variable {places : List (List String)} {d d' : Disk} (h : FilesAt places d d')
  (apart : d.Apart places)
include h apart

theorem not_mem_of_fileName? {path : String}
    (other : ∀ name ∈ SnapshotPaths.names, Path.fileName? path ≠ some name) (place : List String)
    (leads : d.place? path = some place) : place ∉ places := by
  intro hp
  obtain ⟨name, known, last⟩ := apart.named place hp
  have no_dir : ∀ es, d.root.node? place ≠ some (.dir es) :=
    fun es hdir => h.not_mem_of_dir hdir hp
  exact other name known ((fileName?_of_unlinked leads (apart.unlinked place hp) no_dir).trans last)

theorem lookup_file_iff {path : String}
    (other : ∀ name ∈ SnapshotPaths.names, Path.fileName? path ≠ some name) {place : List String}
    {content : ByteArray} : d'.lookup path = .ok (.found place (.file content)) ↔
      d.lookup path = .ok (.found place (.file content)) := by
  simp only [← entry_eq_ok, entry_eq_ok_iff_place?, h.place?_eq]
  refine and_congr_right fun leads => ?_
  have out := not_mem_of_fileName? h apart other place leads
  rw [← Listing.shell?_eq_file, ← Listing.shell?_eq_file, h.elsewhere place out]

theorem gitignore_eq (root : String) : d'.gitignore root = d.gitignore root := by
  refine gitignore_congr h.limits (h.seen_eq ?_)
  refine not_mem_of_fileName? h apart fun name known named => ?_
  rw [Path.fileName?_join root (by decide)] at named
  rw [← Option.some.inj named] at known
  exact absurd known (by decide)

theorem ofConfig_eq (c : Config) : Filter.ofConfig d' c = Filter.ofConfig d c :=
  Filter.ofConfig_congr fun _ => gitignore_eq h apart c.root

section Filter
variable {f : Filter} (rejects : f.RejectsSnapshots)
include rejects

theorem isFile_eq_of_acceptsFile {path : String} (accepted : f.acceptsFile path = true) :
    d'.isFile path = d.isFile path := by
  have other := f.fileName?_ne_of_acceptsFile rejects accepted
  rw [Bool.eq_iff_iff, isFile_eq_true, isFile_eq_true]
  simp only [node_eq_ok, lookup_file_iff h apart other]

theorem extract_eq_of_acceptsFile {path : String} (accepted : f.acceptsFile path = true)
    (file : d.isFile path = true) : d'.extract path = d.extract path := by
  have other := f.fileName?_ne_of_acceptsFile rejects accepted
  obtain ⟨content, there⟩ := isFile_eq_true.1 file
  obtain ⟨place, found⟩ := node_eq_ok.1 there
  have found' := (lookup_file_iff h apart other).2 found
  rw [extract, extract, readText, readText, read, read, entry_eq_ok.2 found, entry_eq_ok.2 found',
    h.limits]

theorem selects_eq (item : Except WalkFault String) : d'.selects f item = d.selects f item := by
  cases item with
  | error e => rfl
  | ok path =>
    simp only [selects]
    cases accepted : f.acceptsFile path with
    | false => simp
    | true => rw [isFile_eq_of_acceptsFile h apart rejects accepted]

/-- What a directory holds at the names of an accepted path is the same, the entries of a directory
left out. -/
theorem shell?_eq_of_acceptsFile {root : String} {here names : List String} {es es' : Listing}
    (hdir : d.root.node? here = some (.dir es)) (hdir' : d'.root.node? here = some (.dir es'))
    (filled : root ≠ "") (ne : names ≠ []) (valid : ∀ n ∈ names, ValidName n)
    (accepted : f.acceptsFile (Path.joins root names) = true) :
    es'.shell? names = es.shell? names := by
  have same : es'.shell? names = d'.root.shell? (here ++ names) := by
    rw [Listing.shell?, Listing.shell?, Listing.node?_append hdir']
  rw [same, h.elsewhere, Listing.shell?, Listing.shell?, Listing.node?_append hdir]
  intro hp
  obtain ⟨name, known, last⟩ := apart.named _ hp
  rw [List.getLast?_append_of_ne_nil _ ne] at last
  obtain ⟨-, dot, dots, -⟩ := valid name (List.mem_of_getLast? last)
  refine f.fileName?_ne_of_acceptsFile rejects accepted name known ?_
  refine Path.fileName?_of_steps ?_ dot dots
  rw [Path.steps_joins filled valid ne, List.getLast?_append_of_ne_nil _ ne, last]

theorem visited_dir {root : String} {here : List String} {es : Listing} {paths : List String}
    (hroot : d.entry root = .ok (here, .dir es)) (hv : d.visited f root = .ok paths) :
    d'.visited f root = .ok paths := by
  obtain ⟨node, hroot', alike⟩ := h.exists_entry hroot
  cases alike with
  | dir _ es' =>
    have hdir := node?_of_lookup (entry_eq_ok.1 hroot)
    have hdir' := node?_of_lookup (entry_eq_ok.1 hroot')
    have hes := Listing.wellFormed_of_node? d.wellFormed hdir
    have hes' := Listing.wellFormed_of_node? d'.wellFormed hdir'
    have filled := root_ne_empty (node_eq_ok.2 ⟨here, entry_eq_ok.1 hroot⟩)
    have lists := (lists_of_visited hroot hv).of_dirs h.limits h.exists_dir_before hdir hdir'
    rw [visited_of_lists hroot' lists, visited_eq hroot hv]
    refine congrArg (fun names : List _ => Except.ok (names.map (Path.joins root))) ?_
    have same : ∀ path, (d'.isFile path && f.acceptsFile path) =
        (d.isFile path && f.acceptsFile path) :=
      fun path => selects_eq h apart rejects (.ok path)
    simp only [same]
    refine Listing.filter_entriesBelow_eq hes hes' fun names selected => ?_
    have accepted := (Bool.and_eq_true_iff.1 selected).2
    have same := fun ne valid => shell?_eq_of_acceptsFile h apart rejects hdir hdir' filled ne valid
      accepted
    constructor
    · intro entry
      obtain ⟨ne, valid⟩ := Listing.valid_of_entry hes' entry
      rwa [Listing.exists_entry_iff, same ne valid, ← Listing.exists_entry_iff] at entry
    · intro entry
      obtain ⟨ne, valid⟩ := Listing.valid_of_entry hes entry
      rwa [Listing.exists_entry_iff, ← same ne valid, ← Listing.exists_entry_iff] at entry

theorem visited_eq_self {root : String} {paths : List String}
    (hv : d.visited f root = .ok paths) : d'.visited f root = .ok paths := by
  cases hroot : d.entry root with
  | error fault =>
    obtain ⟨e, walked⟩ := exists_walk_of_error hroot (!f.excludesDir ·)
    rw [visited_eq_ok, visits, walked, List.filter_cons_of_pos rfl] at hv
    cases paths <;> cases hv
  | ok there =>
    obtain ⟨place, node⟩ := there
    obtain ⟨node', hroot', alike⟩ := h.exists_entry hroot
    cases alike with
    | dir es es' => exact visited_dir h apart rejects hroot hv
    | file _ _ | link _ | sink =>
      rw [visited_eq_ok, visits, walk_of_no_dir hroot rfl] at hv
      rw [visited_eq_ok, visits, walk_of_no_dir hroot' rfl, ← hv]
      exact List.filter_congr fun item _ => selects_eq h apart rejects item

theorem scan_eq_self {c : Config} {s : Scan} (hf : Filter.ofConfig d c = .ok f)
    (hs : d.scan c = .ok s) : d'.scan c = .ok s := by
  have hf' := (ofConfig_eq h apart c).trans hf
  obtain ⟨paths, hv, -⟩ := covers_of_scan hf hs
  have same : ∀ path ∈ paths, d'.extract path = d.extract path := by
    intro path hp
    obtain ⟨file, accepted⟩ := selected_of_mem_visited hv hp
    exact extract_eq_of_acceptsFile h apart rejects accepted file
  rw [scan_of_visited hf' (visited_eq_self h apart rejects hv), foldlM_visit_congr same,
    ← scan_of_visited hf hv]
  exact hs

end Filter

theorem generate_eq_self {c : Config} (rejects : ∀ name ∈ SnapshotPaths.names,
    (Filter.hasSuffix name c.sourceSuffixes && !Filter.hasSuffix name c.excludedSuffixes) = false)
    {scan : Scan} {report : Report} (generated : d.generate c = .ok (scan, report)) :
    d'.generate c = .ok (scan, report) := by
  obtain ⟨⟨f, hf⟩, hs, rfl⟩ := generate_eq_ok.1 generated
  have same := scan_eq_self h apart (Filter.rejectsSnapshots_of_ofConfig hf rejects) hf hs
  exact generate_eq_ok.2 ⟨⟨f, (ofConfig_eq h apart c).trans hf⟩, same, rfl⟩

end Rerun

/-- A snapshot taken again where one was written comes to the same and changes nothing. Its files
may be in the directory that is scanned, but the suffix rules have to reject their names, and no
link may lead to them: the next scan would take the file that the link leads to. -/
theorem generate_writeSnapshot_again {d d' : Disk} {c : Config} {scan : Scan} {report : Report}
    {dir : String} {format : Format} {paths : SnapshotPaths}
    (rejects : ∀ name ∈ SnapshotPaths.names, (Filter.hasSuffix name c.sourceSuffixes &&
      !Filter.hasSuffix name c.excludedSuffixes) = false)
    (generated : d.generate c = .ok (scan, report))
    (written : d.writeSnapshot report dir format = (d', .ok paths))
    (unlinked : ∀ place, d.place? paths.report = some place ∨ d.place? paths.markdown = some place →
      d.Unlinked place) :
    d'.generate c = .ok (scan, report) ∧
      d'.writeSnapshot report dir format = (d', .ok paths) := by
  obtain ⟨places, files, outputs⟩ := filesAt_of_writeSnapshot written
  obtain ⟨same, markdown, report⟩ := stored_of_writeSnapshot written
  -- No link is on the last step, so the names of the two places are those of the files.
  obtain ⟨name, known, named, named', ne⟩ := SnapshotPaths.fileName?_inDir dir format
  rw [← same] at named named' outputs
  have apart : d.Apart places := by
    refine ⟨fun p hp => unlinked p (outputs p hp), fun p hp => ?_⟩
    have no_dir : ∀ es, d.root.node? p ≠ some (.dir es) :=
      fun es hdir => files.not_mem_of_dir hdir hp
    have last : ∀ {path}, d.place? path = some p → Path.fileName? path = p.getLast? :=
      fun leads => fileName?_of_unlinked leads (unlinked p (outputs p hp)) no_dir
    rcases outputs p hp with leads | leads
    · exact ⟨name, known, (last leads).symm.trans named⟩
    · exact ⟨_, by decide, (last leads).symm.trans named'⟩
  have differ : ∀ p, d.place? paths.report = some p → d.place? paths.markdown ≠ some p := by
    intro p leads leads'
    have no_dir : ∀ es, d.root.node? p ≠ some (.dir es) := by
      intro es hdir
      obtain ⟨es', hdir'⟩ := files.exists_dir hdir
      exact markdown.no_dir ((files.place?_eq _ _).trans leads') es' hdir'
    rw [fileName?_of_unlinked leads (unlinked p (.inl leads)) no_dir] at named
    rw [fileName?_of_unlinked leads' (unlinked p (.inr leads')) no_dir] at named'
    exact ne (Option.some.inj (named.symm.trans named'))
  exact ⟨generate_eq_self files apart rejects generated,
    writeSnapshot_eq_self same (report differ) markdown⟩

/-- A snapshot in the scanned directory, taken twice. -/
theorem sample_again : ∃ report d' paths, sample.generate {} = .ok (sampleScan, report) ∧
    sample.writeSnapshot report "." .json = (d', .ok paths) ∧
      d'.generate {} = .ok (sampleScan, report) ∧
        d'.writeSnapshot report "." .json = (d', .ok paths) := by
  have json : Path.steps "./project_snapshot.json" = [".", "project_snapshot.json"] := by decide
  have md : Path.steps "./project_snapshot.md" = [".", "project_snapshot.md"] := by decide
  have report : sample.place? "./project_snapshot.json" = some ["project_snapshot.json"] := by
    refine place?_eq_some.2 ⟨.missing [] "project_snapshot.json", ?_, rfl⟩
    rw [lookup, json]
    simp [resolve, Listing.node?, Listing.find?, sample, Path.isAbsolute]
  have markdown : sample.place? "./project_snapshot.md" = some ["project_snapshot.md"] := by
    refine place?_eq_some.2 ⟨.missing [] "project_snapshot.md", ?_, rfl⟩
    rw [lookup, md]
    simp [resolve, Listing.node?, Listing.find?, sample, Path.isAbsolute]
  have no_link : ∀ names target, sample.root.node? names ≠ some (.link target) := by
    intro names target
    rcases names with _ | ⟨m, _ | ⟨n, names⟩⟩
    · simp [Listing.node?]
    · simp only [sample, Listing.node?_dir]
      split_ifs <;> simp [Listing.node?, Listing.find?]
    · simp only [sample, Listing.node?_dir, Listing.node?_file]
      split_ifs <;> simp [Listing.node?, Listing.find?]
  have generated : sample.generate {} =
      .ok (sampleScan, .ofRecords .standard sampleScan.files) := by
    rw [generate, scan_sample]
    rfl
  have nothing : ∀ place ∈ [["project_snapshot.json"], ["project_snapshot.md"]], ∀ node,
      sample.root.node? place = some node → ∃ content, node = .file content := by
    simp [Listing.node?, Listing.find?, sample]
  have paths : (⟨"./project_snapshot.json", "./project_snapshot.md"⟩ : SnapshotPaths) =
      .inDir "." .json := by decide
  obtain ⟨d', written, -⟩ := exists_writeSnapshot paths rfl report markdown (by decide) nothing
    (.ofRecords .standard sampleScan.files)
  obtain ⟨again, unchanged⟩ := generate_writeSnapshot_again (by decide) generated written
    fun place _ names target hlink => absurd hlink (no_link names target)
  exact ⟨_, d', _, generated, written, again, unchanged⟩

end Disk

end Snapshot

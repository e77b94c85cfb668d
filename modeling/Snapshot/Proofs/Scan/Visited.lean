import Snapshot.Proofs.Disk.Writing
import Snapshot.Scan

/-!
# The files that a scan visits

A scan goes over the accepted files below its root once, in the order of their names, and counts
what it does with each. The files that it keeps are those that could be read and declare something.
-/

namespace Snapshot

def Disk.record? (d : Disk) (path : String) : Option FileRecord :=
  (d.readText path).toOption.map (FileRecord.ofSource path)

namespace Scan

structure Covers (d : Disk) (paths : List String) (s : Scan) : Prop where
  files : s.files = (paths.filterMap d.record?).filter (·.hasDeclarations)
  visited : s.stats.visited = paths.length
  extracted : s.stats.extracted = (paths.filterMap d.record?).length
  skipped : s.stats.visited = s.stats.extracted + s.stats.skipped
  retained : s.stats.retained = s.files.length

theorem covers_nil (d : Disk) (root : String) : Covers d [] { root } :=
  ⟨rfl, rfl, rfl, rfl, rfl⟩

theorem Covers.add {d : Disk} {paths : List String} {s : Scan} {path : String} {r : FileRecord}
    (h : Covers d paths s) (record : d.record? path = some r) :
    Covers d (paths ++ [path]) (s.add r) := by
  have visited := h.visited
  have extracted := h.extracted
  have skipped := h.skipped
  have retained := h.retained
  have records : (paths ++ [path]).filterMap d.record? = paths.filterMap d.record? ++ [r] := by
    rw [List.filterMap_append, List.filterMap_cons, record]
    rfl
  refine ⟨?_, ?_, ?_, ?_, ?_⟩
  · rw [records, List.filter_append, ← h.files, Scan.add]
    cases kept : r.hasDeclarations <;> simp [kept]
  · simp [Scan.add, visited]
  · simp [Scan.add, records, extracted]
  · simp only [Scan.add]
    omega
  · simp only [Scan.add]
    split <;> simp [retained]

theorem Covers.addSkipped {d : Disk} {paths : List String} {s : Scan} {path : String}
    {e : ReadError} (h : Covers d paths s) (unread : d.record? path = none) :
    Covers d (paths ++ [path]) (s.addSkipped e) := by
  have visited := h.visited
  have skipped := h.skipped
  have records : (paths ++ [path]).filterMap d.record? = paths.filterMap d.record? := by
    rw [List.filterMap_append, List.filterMap_cons, unread]
    exact List.append_nil _
  refine ⟨?_, ?_, ?_, ?_, h.retained⟩
  · rw [records]
    exact h.files
  · simp [Scan.addSkipped, visited]
  · rw [records]
    exact h.extracted
  · simp only [Scan.addSkipped]
    omega

theorem Covers.visit {d : Disk} {policy : ErrorPolicy} {paths : List String} {s s' : Scan}
    {path : String} (h : Covers d paths s) (step : Scan.visit d policy s path = .ok s') :
    Covers d (paths ++ [path]) s' := by
  unfold Scan.visit Disk.extract at step
  cases text : d.readText path with
  | ok content =>
    have record : d.record? path = some (.ofSource path content) := by
      rw [Disk.record?, text]
      rfl
    simp only [text] at step
    obtain rfl := Except.ok.inj step
    exact h.add record
  | error fault =>
    have unread : d.record? path = none := by
      rw [Disk.record?, text]
      rfl
    cases policy with
    | skip =>
      simp only [text] at step
      obtain rfl := Except.ok.inj step
      exact h.addSkipped unread
    | abort => simp [text] at step

theorem Covers.foldlM {d : Disk} {policy : ErrorPolicy} {paths more : List String} {s s' : Scan}
    (h : Covers d paths s) (run : more.foldlM (Scan.visit d policy) s = .ok s') :
    Covers d (paths ++ more) s' := by
  induction more generalizing paths s with
  | nil =>
    obtain rfl := Except.ok.inj run
    rwa [List.append_nil]
  | cons path more ih =>
    rw [List.foldlM_cons] at run
    cases step : Scan.visit d policy s path with
    | error e => simp [step, bind, Except.bind] at run
    | ok next =>
      simp only [step, bind, Except.bind] at run
      have all := ih (h.visit step) run
      rwa [List.append_assoc, List.singleton_append] at all

end Scan

/-- What comes before the first fault in a list, and that fault. -/
def upToFault {ε α : Type} : List (Except ε α) → List α × Option ε
  | [] => ([], none)
  | .ok a :: items => (a :: (upToFault items).1, (upToFault items).2)
  | .error e :: _ => ([], some e)

theorem upToFault_eq_none {ε α : Type} {items : List (Except ε α)} {as : List α} :
    upToFault items = (as, none) ↔ items = as.map .ok := by
  induction items generalizing as with
  | nil => simp [upToFault, eq_comm]
  | cons item items ih =>
    cases item with
    | error e => cases as <;> simp [upToFault]
    | ok a =>
      cases as with
      | nil => simp [upToFault]
      | cons b as => simp [upToFault, ← ih, Prod.ext_iff, and_assoc]

theorem exists_eq_of_upToFault {ε α : Type} {items : List (Except ε α)} {e : ε}
    (h : (upToFault items).2 = some e) :
    ∃ more, items = (upToFault items).1.map .ok ++ .error e :: more := by
  induction items with
  | nil => cases h
  | cons item items ih =>
    cases item with
    | error e' =>
      obtain rfl := Option.some.inj h
      exact ⟨items, rfl⟩
    | ok a =>
      obtain ⟨more, eq⟩ := ih h
      exact ⟨more, congrArg (Except.ok a :: ·) eq⟩

namespace Scan

def ended (s : Scan) : Option WalkFault → Except ScanError Scan
  | none => .ok s
  | some e => .error (.walk e.path e.fault)

theorem foldlM_step (d : Disk) (policy : ErrorPolicy) (items : List (Except WalkFault String))
    (s : Scan) : items.foldlM (step d policy) s =
      (((upToFault items).1.foldlM (visit d policy) s).mapError .read).bind
        (·.ended (upToFault items).2) := by
  induction items generalizing s with
  | nil => rfl
  | cons item items ih =>
    cases item with
    | error e => rfl
    | ok path =>
      rw [List.foldlM_cons, upToFault, List.foldlM_cons, step]
      cases visit d policy s path with
      | error e => rfl
      | ok next => exact ih next

end Scan

theorem Filter.ofConfig_eq_ok {d : Disk} {c : Config} {f : Filter} : ofConfig d c = .ok f ↔
    ∃ patterns, c.ignorePatterns.mapM compilePattern = .ok patterns ∧
      f = ⟨c.excludedDirs, c.sourceSuffixes, c.excludedSuffixes, patterns,
        if c.respectGitignore then d.gitignore c.root else none⟩ := by
  unfold ofConfig
  cases c.ignorePatterns.mapM compilePattern with
  | error e => simp [bind, Except.bind]
  | ok patterns =>
    simp only [bind, Except.bind, pure, Except.pure, Except.ok.injEq, exists_eq_left']
    exact eq_comm

theorem Filter.ofConfig_congr {d d' : Disk} {c : Config}
    (same : c.respectGitignore = true → d'.gitignore c.root = d.gitignore c.root) :
    ofConfig d' c = ofConfig d c := by
  unfold ofConfig
  cases respects : c.respectGitignore with
  | false => rfl
  | true => rw [same respects]

namespace Disk

/-- What rules there are is told by what is seen at the `.gitignore`, and by what may be read. -/
theorem gitignore_congr {d d' : Disk} {root : String} (limits : d'.limits = d.limits)
    (seen : d'.seen (Path.join root ".gitignore") = d.seen (Path.join root ".gitignore")) :
    d'.gitignore root = d.gitignore root := by
  have read : (d'.read (Path.join root ".gitignore")).toOption =
      (d.read (Path.join root ".gitignore")).toOption := by
    rw [toOption_read, toOption_read, seen, limits]
  unfold gitignore
  simp only [isThere_eq_isSome, seen]
  cases old : d.read (Path.join root ".gitignore") <;>
    cases new : d'.read (Path.join root ".gitignore") <;>
    simp_all [Except.toOption]

theorem mapError_eq_ok {ε ε' α : Type} {f : ε → ε'} {x : Except ε α} {a : α}
    (h : x.mapError f = .ok a) : x = .ok a := by
  cases x with
  | error e => simp [Except.mapError] at h
  | ok b => simpa [Except.mapError] using h

theorem generate_eq (d : Disk) (c : Config) : d.generate c =
    match Filter.ofConfig d c with
    | .error e => .error (.filter e)
    | .ok f => (d.scanWith f c).map fun s => (s, Report.ofRecords c.keywords s.files) := by
  unfold generate scan
  cases Filter.ofConfig d c with
  | error e => rfl
  | ok f =>
    cases h : d.scanWith f c <;>
      simp [Except.mapError, bind, Except.bind, Except.map, pure, Except.pure, h]

theorem generate_eq_ok {d : Disk} {c : Config} {scan : Scan} {report : Report} :
    d.generate c = .ok (scan, report) ↔ (∃ f, Filter.ofConfig d c = .ok f) ∧
      d.scan c = .ok scan ∧ report = Report.ofRecords c.keywords scan.files := by
  rw [generate_eq, Disk.scan]
  cases Filter.ofConfig d c with
  | error e => simp
  | ok f =>
    cases h : d.scanWith f c with
    | error e => simp [Except.map, Except.mapError, bind, Except.bind, h]
    | ok s =>
      simp only [Except.map, Except.mapError, bind, Except.bind, h, Except.ok.injEq, Prod.mk.injEq,
        exists_eq', true_and]
      constructor
      · rintro ⟨rfl, rfl⟩
        exact ⟨rfl, rfl⟩
      · rintro ⟨rfl, rfl⟩
        exact ⟨rfl, rfl⟩

/-- The files that a scan comes to. -/
def reached (d : Disk) (f : Filter) (root : String) : List String := (upToFault (d.visits f root)).1

def visited (d : Disk) (f : Filter) (root : String) : Except WalkFault (List String) :=
  match (upToFault (d.visits f root)).2 with
  | none => .ok (d.reached f root)
  | some e => .error e

theorem visited_eq_ok {d : Disk} {f : Filter} {root : String} {paths : List String} :
    d.visited f root = .ok paths ↔ d.visits f root = paths.map .ok := by
  rw [← upToFault_eq_none, visited, reached]
  rcases upToFault (d.visits f root) with ⟨as, _ | e⟩ <;> simp

theorem reached_of_visited {d : Disk} {f : Filter} {root : String} {paths : List String}
    (h : d.visited f root = .ok paths) : d.reached f root = paths := by
  rw [reached, upToFault_eq_none.2 (visited_eq_ok.1 h)]

theorem upToFault_of_visited {d : Disk} {f : Filter} {root : String} {e : WalkFault}
    (h : d.visited f root = .error e) : (upToFault (d.visits f root)).2 = some e := by
  rw [visited] at h
  cases stop : (upToFault (d.visits f root)).2 with
  | none => simp [stop] at h
  | some e' => simpa [stop] using h

section Scan
variable {d : Disk} {c : Config} {f : Filter} (hf : Filter.ofConfig d c = .ok f)
include hf

theorem scan_of_visited {paths : List String} (hv : d.visited f c.root = .ok paths) :
    d.scan c =
      (paths.foldlM (Scan.visit d c.errorPolicy) { root := c.root }).mapError .read := by
  rw [scan, hf]
  change d.scanWith f c = _
  rw [scanWith, Scan.foldlM_step, upToFault_eq_none.2 (visited_eq_ok.1 hv)]
  cases paths.foldlM (Scan.visit d c.errorPolicy) { root := c.root } <;> rfl

theorem scan_of_fault {e : WalkFault} (hv : d.visited f c.root = .error e) :
    d.scan c = (((d.reached f c.root).foldlM (Scan.visit d c.errorPolicy)
      { root := c.root }).mapError .read).bind fun _ => .error (.walk e.path e.fault) := by
  rw [scan, hf]
  change d.scanWith f c = _
  rw [scanWith, Scan.foldlM_step, upToFault_of_visited hv]
  rfl

theorem covers_of_scan {s : Scan} (hs : d.scan c = .ok s) :
    ∃ paths, d.visited f c.root = .ok paths ∧ s.Covers d paths := by
  cases hv : d.visited f c.root with
  | error e =>
    rw [scan_of_fault hf hv] at hs
    cases run : (d.reached f c.root).foldlM (Scan.visit d c.errorPolicy) { root := c.root } <;>
      simp [run, Except.mapError, Except.bind] at hs
  | ok paths =>
    rw [scan_of_visited hf hv] at hs
    exact ⟨paths, rfl, (Scan.covers_nil d c.root).foldlM (mapError_eq_ok hs)⟩

end Scan

theorem isFile_eq_false {d : Disk} {path : String} {es : Listing}
    (h : d.node path = .ok (.dir es)) : d.isFile path = false := by
  rw [isFile, h]

theorem walk_of_no_dir {d : Disk} {root : String} {place : List String} {node : Node}
    (hroot : d.entry root = .ok (place, node)) (no_dir : node.isDir = false)
    (enter : String → Bool) : d.walk enter root = [.ok root] := by
  obtain ⟨here, node', there⟩ := exists_entry_of_follow hroot
  unfold Disk.walk
  rw [there]
  cases node' with
  | file _ | sink => rfl
  | link target =>
    simp only [hroot]
    cases node with
    | dir es => cases no_dir
    | file _ | link _ | sink => rfl
  | dir es =>
    have same := (entry_of_not_follow (fun _ => Node.noConfusion) there).symm.trans hroot
    cases Except.ok.inj same
    cases no_dir

theorem exists_walk_of_error {d : Disk} {root : String} {fault : DiskFault}
    (hroot : d.entry root = .error fault) (enter : String → Bool) :
    ∃ e, d.walk enter root = [.error e] := by
  unfold Disk.walk
  cases there : d.entry root false with
  | error fault' => exact ⟨_, rfl⟩
  | ok found =>
    obtain ⟨place, node⟩ := found
    cases node with
    | link target => exact ⟨⟨root, fault⟩, by simp only [hroot]⟩
    | file _ | sink | dir _ =>
      have same := (entry_of_not_follow (fun _ => Node.noConfusion) there).symm.trans hroot
      cases same

/-- Every directory that a scan enters can be listed, its root too. -/
def Lists (d : Disk) (f : Filter) (root : String) (place : List String) (es : Listing) : Prop :=
  ∀ names inner, es.node? names = some (.dir inner) →
    (∀ p, p <+: names → p ≠ [] → f.excludesDir (Path.joins root p) = false) →
    d.limits.listing (place ++ names) (Path.joins root names) = none

def Refuses (d : Disk) (f : Filter) (root : String) (place : List String) (es : Listing)
    (e : WalkFault) : Prop :=
  ∃ names inner, es.node? names = some (.dir inner) ∧
    (∀ p, p <+: names → p ≠ [] → f.excludesDir (Path.joins root p) = false) ∧
    e.path = Path.joins root names ∧ d.limits.listing (place ++ names) e.path = some e.fault

theorem lists_iff {d : Disk} {f : Filter} {root : String} {place : List String} {es : Listing} :
    d.Lists f root place es ↔ d.limits.listing place root = none ∧
      es.Listable d.limits (fun names => !f.excludesDir (Path.joins root names)) place root := by
  constructor
  · intro lists
    constructor
    · have listed := lists [] es rfl fun p hp filled => absurd (List.prefix_nil.1 hp) filled
      rwa [List.append_nil] at listed
    · intro names inner hdir ne entered last
      have all := (entered_and_enter ne).1 ⟨entered, last⟩
      simp only [Bool.not_eq_true'] at all
      exact lists names inner hdir all
  · rintro ⟨listed, below⟩ names inner hdir all
    by_cases ne : names = []
    · rw [ne, List.append_nil]
      exact listed
    · obtain ⟨entered, last⟩ : Entered (fun p => !f.excludesDir (Path.joins root p)) names ∧
          (!f.excludesDir (Path.joins root names)) = true :=
        (entered_and_enter ne).2 (by simpa only [Bool.not_eq_true'] using all)
      exact below names inner hdir ne entered last

section Root
variable {d : Disk} {f : Filter} {root : String} {place : List String} {es : Listing}
  (found : d.entry root = .ok (place, .dir es))
include found

theorem walk_of_dir (enter : String → Bool) :
    ∃ start, (start = [] ∨ start = [.ok root]) ∧ d.walk enter root =
      start ++ d.limits.list place root (es.walk d.limits enter place root) := by
  obtain ⟨here, node, there⟩ := exists_entry_of_follow found
  unfold Disk.walk
  rw [there]
  cases node with
  | link target => exact ⟨[.ok root], .inr rfl, by simp only [found]; rfl⟩
  | file _ | sink =>
    have same := (entry_of_not_follow (fun _ => Node.noConfusion) there).symm.trans found
    cases Except.ok.inj same
  | dir _ =>
    have same := (entry_of_not_follow (fun _ => Node.noConfusion) there).symm.trans found
    cases Except.ok.inj same
    exact ⟨[], .inl rfl, rfl⟩

theorem visits_of_dir : d.visits f root =
    (d.limits.list place root
      (es.walk d.limits (!f.excludesDir ·) place root)).filter (d.selects f) := by
  obtain ⟨start, alone, walked⟩ := walk_of_dir found (!f.excludesDir ·)
  have no_file : d.isFile root = false :=
    isFile_eq_false (node_eq_ok.2 ⟨place, entry_eq_ok.1 found⟩)
  rw [visits, walked, List.filter_append]
  rcases alone with rfl | rfl <;> simp [selects, no_file]

theorem visited_of_lists (lists : d.Lists f root place es) : d.visited f root =
    .ok (((es.entriesBelow fun names => !f.excludesDir (Path.joins root names)).filter fun names =>
      d.isFile (Path.joins root names) && f.acceptsFile (Path.joins root names)).map
        (Path.joins root)) := by
  have hes := wellFormed_of_node (node_eq_ok.2 ⟨place, entry_eq_ok.1 found⟩)
  obtain ⟨listed, below⟩ := lists_iff.1 lists
  rw [visited_eq_ok, visits_of_dir found, Limits.list, listed]
  simp only [Listing.walk_of_listable (fun path => !f.excludesDir path) hes below]
  rw [List.filter_map, List.map_map]
  rfl

theorem refuses_of_fault {e : WalkFault} (fault : .error e ∈ d.visits f root) :
    d.Refuses f root place es e := by
  have hes := wellFormed_of_node (node_eq_ok.2 ⟨place, entry_eq_ok.1 found⟩)
  rw [visits_of_dir found] at fault
  have fault := (List.mem_filter.1 fault).1
  unfold Limits.list at fault
  cases listed : d.limits.listing place root with
  | some fault' =>
    rw [listed] at fault
    obtain rfl := Except.error.inj (List.mem_singleton.1 fault)
    refine ⟨[], es, rfl, fun p hp filled => absurd (List.prefix_nil.1 hp) filled, rfl, ?_⟩
    rwa [List.append_nil]
  | none =>
    rw [listed] at fault
    obtain ⟨names, inner, hdir, ne, entered, last, told⟩ :=
      Listing.exists_dir_of_fault (fun path => !f.excludesDir path) hes fault
    refine ⟨names, inner, hdir, ?_, told⟩
    simpa only [Bool.not_eq_true'] using (entered_and_enter ne).1 ⟨entered, last⟩

theorem lists_of_visited {paths : List String} (hv : d.visited f root = .ok paths) :
    d.Lists f root place es := by
  have hes := wellFormed_of_node (node_eq_ok.2 ⟨place, entry_eq_ok.1 found⟩)
  have faultless : ∀ e, .error e ∉ d.limits.list place root
      (es.walk d.limits (!f.excludesDir ·) place root) := by
    intro e he
    have selected : .error e ∈ d.visits f root := by
      rw [visits_of_dir found]
      exact List.mem_filter.2 ⟨he, rfl⟩
    rw [visited_eq_ok.1 hv] at selected
    simp at selected
  unfold Limits.list at faultless
  refine lists_iff.2 ?_
  cases listed : d.limits.listing place root with
  | some fault =>
    rw [listed] at faultless
    exact absurd (List.mem_singleton_self _) (faultless _)
  | none =>
    rw [listed] at faultless
    exact ⟨rfl, Listing.listable_of_walk (fun path => !f.excludesDir path) hes faultless⟩

/-- If a directory cannot be listed, the walk comes to a fault behind the files that it reaches. -/
theorem exists_fault_of_not_lists (refused : ¬ d.Lists f root place es) :
    ∃ e more, d.visited f root = .error e ∧
      d.visits f root = (d.reached f root).map .ok ++ .error e :: more ∧
      d.Refuses f root place es e := by
  cases hv : d.visited f root with
  | ok paths => exact absurd (lists_of_visited found hv) refused
  | error e =>
    obtain ⟨more, eq⟩ := exists_eq_of_upToFault (upToFault_of_visited hv)
    refine ⟨e, more, rfl, eq, refuses_of_fault found ?_⟩
    rw [eq]
    exact List.mem_append_right _ List.mem_cons_self

theorem visited_eq {paths : List String} (hv : d.visited f root = .ok paths) :
    paths = ((es.entriesBelow fun names => !f.excludesDir (Path.joins root names)).filter
      fun names => d.isFile (Path.joins root names) && f.acceptsFile (Path.joins root names)).map
        (Path.joins root) :=
  Except.ok.inj (hv.symm.trans (visited_of_lists found (lists_of_visited found hv)))

end Root

theorem Lists.of_dirs {d d' : Disk} {f : Filter} {root : String} {place : List String}
    {es es' : Listing} (lists : d.Lists f root place es) (limits : d'.limits = d.limits)
    (dirs : ∀ {p inner'}, d'.root.node? p = some (.dir inner') →
      ∃ inner, d.root.node? p = some (.dir inner))
    (hdir : d.root.node? place = some (.dir es)) (hdir' : d'.root.node? place = some (.dir es')) :
    d'.Lists f root place es' := by
  intro names inner' there' all
  rw [← Listing.node?_append hdir'] at there'
  obtain ⟨inner, there⟩ := dirs there'
  rw [Listing.node?_append hdir] at there
  rw [limits]
  exact lists names inner there all

/-- A regular file, or a link that leads to one. -/
def Reaches (d : Disk) (root : String) (es : Listing) (names : List String) : Prop :=
  (∃ content, es.node? names = some (.file content)) ∨
    ∃ target, es.node? names = some (.link target) ∧ d.isFile (Path.joins root names) = true

def sample : Disk where
  root := .dir "node_modules" (.file "b.ts" "class B".toUTF8 .nil)
    (.dir "src" (.file "a.ts" "class A".toUTF8 .nil) .nil)
  wellFormed := ⟨by decide, by decide, ⟨by decide, by decide, trivial⟩, by decide, by decide,
    ⟨by decide, by decide, trivial⟩, trivial⟩

def sampleFilter : Filter where
  excludedDirs := ["node_modules", "dist", "build", "public", ".git"]
  sourceSuffixes := [".ts", ".tsx"]
  excludedSuffixes := [".d.ts", ".test.ts", ".spec.ts"]
  patterns := []
  gitignore := none

def sampleScan : Scan where
  root := "."
  files := [.ofSource "./src/a.ts" "class A"]
  stats := ⟨1, 1, 1, 0⟩

theorem entry_sample (follow : Bool) : sample.entry "." follow = .ok ([], .dir sample.root) := by
  have steps : Path.steps "." = ["."] := by decide
  rw [entry_eq_ok, lookup, steps]
  simp [resolve, Listing.node?, sample, Path.isAbsolute]

theorem lookup_sample_file :
    sample.lookup "./src/a.ts" = .ok (.found ["src", "a.ts"] (.file "class A".toUTF8)) := by
  have steps : Path.steps "./src/a.ts" = [".", "src", "a.ts"] := by decide
  rw [lookup, steps]
  simp [resolve, Listing.node?, Listing.find?, sample, Path.isAbsolute]

theorem visited_sample : sample.visited sampleFilter "." = .ok ["./src/a.ts"] := by
  have walked : sample.limits.list [] "." (sample.root.walk sample.limits
      (!sampleFilter.excludesDir ·) [] ".") = [.ok "./src/a.ts"] := by
    decide +kernel
  have file : sample.isFile "./src/a.ts" = true :=
    isFile_eq_true.2 ⟨_, node_eq_ok.2 ⟨_, lookup_sample_file⟩⟩
  have accepted : sampleFilter.acceptsFile "./src/a.ts" = true := by decide +kernel
  rw [visited_eq_ok, visits_of_dir (entry_sample true), walked]
  simp [selects, file, accepted]

theorem scan_sample : sample.scan {} = .ok sampleScan := by
  have decoded : String.fromUTF8? "class A".toUTF8 = some "class A" := by decide +kernel
  have text : sample.readText "./src/a.ts" = .ok "class A" :=
    readText_eq_ok.2 ⟨_, _, _, lookup_sample_file, rfl, rfl, decoded⟩
  have declares : (FileRecord.ofSource "./src/a.ts" "class A").hasDeclarations = true := by
    decide +kernel
  rw [scan_of_visited (c := {}) (f := sampleFilter) rfl visited_sample]
  simp [Scan.visit, extract, text, Scan.add, declares, sampleScan, Except.mapError]

end Disk

end Snapshot

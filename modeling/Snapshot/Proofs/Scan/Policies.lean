import Snapshot.Proofs.Disk.Removing
import Snapshot.Proofs.Scan.Visited

/-!
# What becomes of a file that cannot be read

A scan that aborts ends with the first such file that it comes to. One that skips goes on, and finds
what it would find if these files were not there. Either ends where a directory cannot be listed.
-/

namespace Snapshot

namespace Disk

def isText (d : Disk) (path : String) : Bool := (d.readText path).toOption.isSome

def unread (d : Disk) (paths : List String) : List String := paths.filter (!d.isText ·)

theorem isSome_record? (d : Disk) (path : String) : (d.record? path).isSome = d.isText path := by
  rw [record?, Option.isSome_map]
  rfl

theorem isText_eq_true {d : Disk} {path : String} :
    d.isText path = true ↔ ∃ text, d.readText path = .ok text := by
  unfold isText
  cases d.readText path <;> simp [Except.toOption]

theorem filterMap_record? (d : Disk) (paths : List String) :
    paths.filterMap d.record? = (paths.filter d.isText).filterMap d.record? := by
  rw [List.filterMap_filter]
  refine List.filterMap_congr fun path _ => ?_
  split
  · rfl
  · rename_i unread
    rwa [← isSome_record?, Bool.not_eq_true, Option.isSome_eq_false_iff,
      Option.isNone_iff_eq_none] at unread

theorem unread_eq_nil {d : Disk} {paths : List String} :
    d.unread paths = [] ↔ ∀ path ∈ paths, d.isText path = true := by
  simp [unread]

theorem unread_cons_of_isText {d : Disk} {path : String} (h : d.isText path = true)
    (paths : List String) : d.unread (path :: paths) = d.unread paths :=
  List.filter_cons_of_neg (by simp [h])

theorem unread_cons {d : Disk} {path : String} (h : d.isText path = false)
    (paths : List String) : d.unread (path :: paths) = path :: d.unread paths :=
  List.filter_cons_of_pos (by simp [h])

theorem length_records (d : Disk) (paths : List String) :
    paths.length = (paths.filterMap d.record?).length + (d.unread paths).length := by
  induction paths with
  | nil => rfl
  | cons path paths ih =>
    have read := d.isSome_record? path
    cases record : d.record? path with
    | none =>
      rw [record] at read
      rw [List.filterMap_cons_none record, unread_cons read.symm, List.length_cons,
        List.length_cons]
      omega
    | some r =>
      rw [record] at read
      rw [List.filterMap_cons_some record, unread_cons_of_isText read.symm, List.length_cons,
        List.length_cons]
      omega

end Disk

namespace Scan

theorem Covers.skipped_eq {d : Disk} {paths : List String} {s : Scan} (h : Covers d paths s) :
    s.stats.skipped = (d.unread paths).length := by
  have visited := h.visited
  have extracted := h.extracted
  have skipped := h.skipped
  have all := d.length_records paths
  omega

theorem visit_of_isText {d : Disk} {path : String} (h : d.isText path = true) (s : Scan) :
    ∃ next, ∀ policy, visit d policy s path = .ok next := by
  cases text : d.readText path with
  | ok content =>
    refine ⟨s.add (.ofSource path content), fun policy => ?_⟩
    simp only [visit, Disk.extract, text]
  | error fault => simp [Disk.isText, text, Except.toOption] at h

theorem visit_skip (d : Disk) (s : Scan) (path : String) :
    ∃ next, visit d .skip s path = .ok next := by
  unfold visit
  cases d.extract path with
  | ok r => exact ⟨s.add r, rfl⟩
  | error e => exact ⟨s.addSkipped e, rfl⟩

theorem visit_abort {d : Disk} {path : String} (h : d.isText path = false) (s : Scan) :
    ∃ fault, d.readText path = .error fault ∧ visit d .abort s path = .error ⟨path, fault⟩ := by
  cases text : d.readText path with
  | ok content => simp [Disk.isText, text, Except.toOption] at h
  | error fault => exact ⟨fault, rfl, by simp only [visit, Disk.extract, text]⟩

theorem exists_foldlM_skip (d : Disk) (paths : List String) (s : Scan) :
    ∃ s', paths.foldlM (visit d .skip) s = .ok s' := by
  induction paths generalizing s with
  | nil => exact ⟨s, rfl⟩
  | cons path paths ih =>
    obtain ⟨next, step⟩ := visit_skip d s path
    obtain ⟨s', run⟩ := ih next
    exact ⟨s', by rw [List.foldlM_cons, step]; exact run⟩

theorem foldlM_abort_of_read {d : Disk} {paths : List String} (h : d.unread paths = [])
    (s : Scan) : paths.foldlM (visit d .abort) s = paths.foldlM (visit d .skip) s := by
  rw [Disk.unread_eq_nil] at h
  induction paths generalizing s with
  | nil => rfl
  | cons path paths ih =>
    rw [List.forall_mem_cons] at h
    obtain ⟨next, step⟩ := visit_of_isText h.1 s
    rw [List.foldlM_cons, List.foldlM_cons, step, step]
    exact ih h.2 next

theorem foldlM_abort_of_unread {d : Disk} {paths more : List String} {path : String}
    (h : d.unread paths = path :: more) (s : Scan) :
    ∃ fault, d.readText path = .error fault ∧
      paths.foldlM (visit d .abort) s = .error ⟨path, fault⟩ := by
  induction paths generalizing s with
  | nil => cases h
  | cons first paths ih =>
    rw [List.foldlM_cons]
    cases read : d.isText first with
    | true =>
      rw [Disk.unread_cons_of_isText read] at h
      obtain ⟨next, step⟩ := visit_of_isText read s
      rw [step]
      exact ih h next
    | false =>
      rw [Disk.unread_cons read] at h
      obtain ⟨rfl, -⟩ := List.cons.inj h
      obtain ⟨fault, unread, step⟩ := visit_abort read s
      rw [step]
      exact ⟨fault, unread, rfl⟩

theorem unread_of_foldlM_abort {d : Disk} {paths : List String} {s s' : Scan}
    (h : paths.foldlM (visit d .abort) s = .ok s') : d.unread paths = [] := by
  cases unread : d.unread paths with
  | nil => rfl
  | cons path more =>
    obtain ⟨fault, -, stopped⟩ := foldlM_abort_of_unread unread s
    rw [stopped] at h
    cases h

theorem exists_foldlM {d : Disk} {policy : ErrorPolicy} {paths : List String}
    (h : policy = .abort → d.unread paths = []) (s : Scan) :
    ∃ s', paths.foldlM (visit d policy) s = .ok s' := by
  cases policy with
  | skip => exact exists_foldlM_skip d paths s
  | abort =>
    rw [foldlM_abort_of_read (h rfl)]
    exact exists_foldlM_skip d paths s

end Scan

namespace Disk

section Ended
variable {d : Disk} {c : Config} {f : Filter} {paths : List String}
  (hf : Filter.ofConfig d c = .ok f) (hv : d.visited f c.root = .ok paths)
include hf hv

theorem scan_eq_ok {s : Scan} (hs : d.scan c = .ok s) :
    s.Covers d paths ∧ (c.errorPolicy = .abort → d.unread paths = []) := by
  rw [scan_of_visited hf hv] at hs
  have run := mapError_eq_ok hs
  refine ⟨(Scan.covers_nil d c.root).foldlM run, fun abort => ?_⟩
  rw [abort] at run
  exact Scan.unread_of_foldlM_abort run

theorem exists_scan (h : c.errorPolicy = .abort → d.unread paths = []) :
    ∃ s, d.scan c = .ok s ∧ s.Covers d paths := by
  obtain ⟨s, run⟩ := Scan.exists_foldlM h { root := c.root }
  have ended : d.scan c = .ok s := by
    rw [scan_of_visited hf hv, run]
    rfl
  exact ⟨s, ended, (scan_eq_ok hf hv ended).1⟩

end Ended

section Visited
variable {d : Disk} {f : Filter} {root : String} {place : List String} {es : Listing}
  {paths : List String} (found : d.entry root = .ok (place, .dir es))
  (hv : d.visited f root = .ok paths)
include found hv

theorem filter_isText_visited :
    paths.filter d.isText =
      ((es.entriesBelow fun names => !f.excludesDir (Path.joins root names)).filter fun names =>
        f.acceptsFile (Path.joins root names) && (d.isFile (Path.joins root names) &&
          d.isText (Path.joins root names))).map (Path.joins root) := by
  rw [visited_eq found hv, List.filter_map, List.filter_filter]
  refine congrArg (List.map (Path.joins root)) (List.filter_congr fun names _ => ?_)
  simp only [Function.comp_apply]
  ac_rfl

theorem exists_unread_names : ∃ names : List (List String),
    d.unread paths = names.map (Path.joins root) ∧ names.Nodup ∧
      ∀ n ∈ names, ((∃ node, es.node? n = some node ∧ node.isDir = false) ∧
        d.isFile (Path.joins root n) = true) ∧ d.isText (Path.joins root n) = false := by
  have hes := wellFormed_of_node (node_eq_ok.2 ⟨place, entry_eq_ok.1 found⟩)
  rw [visited_eq found hv, unread, List.filter_map]
  refine ⟨_, rfl, ?_, fun n hn => ?_⟩
  · refine List.Nodup.filter _ (List.Nodup.filter _ ?_)
    refine (Listing.pairwise_entriesBelow hes).imp fun lt same => ?_
    rw [same] at lt
    exact List.lt_irrefl _ lt
  · obtain ⟨hn, no_text⟩ := List.mem_filter.1 hn
    obtain ⟨hn, selected⟩ := List.mem_filter.1 hn
    exact ⟨⟨((Listing.mem_entriesBelow hes).1 hn).1, (Bool.and_eq_true_iff.1 selected).1⟩,
      by simpa using no_text⟩

end Visited

section Gone
variable {d d' : Disk} {root : String} {es : Listing} {place : List String}
  {names : List (List String)} (found : d.lookup root = .ok (.found place (.dir es)))
  (entries : ∀ n ∈ names, ((∃ node, es.node? n = some node ∧ node.isDir = false) ∧
    d.isFile (Path.joins root n) = true) ∧ d.isText (Path.joins root n) = false)
  (h : FilesGone (names.map (place ++ ·)) d d')
include found entries

theorem exists_lookup_of_leads {p q : List String} {node : Node}
    (hp : p ∈ names.map (place ++ ·)) (leads : d.Leads p (.found q node)) :
    ∃ n ∈ names, d.lookup (Path.joins root n) = .ok (.found q node) := by
  obtain ⟨n, hn, rfl⟩ := List.mem_map.1 hp
  obtain ⟨⟨⟨entry, hentry, no_dir⟩, file⟩, -⟩ := entries n hn
  obtain ⟨content, there⟩ := isFile_eq_true.1 file
  obtain ⟨q', ends⟩ := node_eq_ok.1 there
  have ne : n ≠ [] := by
    rintro rfl
    rw [← Option.some.inj hentry] at no_dir
    cases no_dir
  rw [leads.unique (leads_of_lookup_joins found hentry ne ends)]
  exact ⟨n, hn, ends⟩

/-- Nothing that was removed led to what can be read as text. -/
theorem spares_of_readText {path text : String} {q : List String} {node : Node}
    (ends : d.lookup path = .ok (.found q node)) (read : d.readText path = .ok text) :
    d.Spares (names.map (place ++ ·)) q := by
  intro p hp node' leads
  obtain ⟨n, hn, ends'⟩ := exists_lookup_of_leads found entries hp leads
  have same : node' = node :=
    Option.some.inj ((node?_of_lookup ends').symm.trans (node?_of_lookup ends))
  obtain ⟨q', node'', content, ends'', readable⟩ := readText_eq_ok.1 read
  obtain ⟨rfl, rfl⟩ := Target.found.inj (Except.ok.inj (ends''.symm.trans ends))
  have text' := readText_eq_ok.2 ⟨_, _, content, same ▸ ends', readable⟩
  have no_text := (entries n hn).2
  rw [isText_eq_true.2 ⟨text, text'⟩] at no_text
  cases no_text

include h

theorem readText_eq_ok_iff (path text : String) :
    d'.readText path = .ok text ↔ d.readText path = .ok text := by
  constructor
  · intro read
    obtain ⟨q, node, content, ends, allowed, holds, decoded⟩ := readText_eq_ok.1 read
    obtain ⟨node', ends', shell⟩ := h.lookup_before ends
    rw [← Node.content?_shell, ← shell, Node.content?_shell] at holds
    exact readText_eq_ok.2 ⟨q, node', content, ends', h.limits ▸ allowed, holds, decoded⟩
  · intro read
    obtain ⟨q, node, content, ends, allowed, holds, decoded⟩ := readText_eq_ok.1 read
    obtain ⟨node', ends', shell⟩ :=
      h.lookup_of_spares (spares_of_readText found entries ends read) ends
    rw [← Node.content?_shell, ← shell, Node.content?_shell] at holds
    exact readText_eq_ok.2 ⟨q, node', content, ends', h.limits ▸ allowed, holds, decoded⟩

theorem toOption_readText_eq (path : String) :
    (d'.readText path).toOption = (d.readText path).toOption := by
  refine Option.ext fun text => ?_
  have ok : ∀ x : Except DiskFault String, x.toOption = some text ↔ x = .ok text := by
    intro x
    cases x <;> simp [Except.toOption]
  rw [ok, ok, readText_eq_ok_iff found entries h]

theorem isText_eq : d'.isText = d.isText :=
  funext fun path => by rw [isText, isText, toOption_readText_eq found entries h]

theorem record?_eq : d'.record? = d.record? :=
  funext fun path => by rw [record?, record?, toOption_readText_eq found entries h]

theorem isFile_and_isText_eq (path : String) :
    (d'.isFile path && d'.isText path) = (d.isFile path && d.isText path) := by
  rw [isText_eq found entries h]
  cases read : d.isText path with
  | false => simp
  | true =>
    obtain ⟨text, read⟩ := isText_eq_true.1 read
    obtain ⟨q, node, -, ends, -⟩ := readText_eq_ok.1 read
    obtain ⟨node', ends', shell⟩ :=
      h.lookup_of_spares (spares_of_readText found entries ends read) ends
    rw [isFile, isFile, node_eq_ok.2 ⟨q, ends⟩, node_eq_ok.2 ⟨q, ends'⟩]
    cases Node.alike_of_shell shell <;> rfl

theorem gitignore_eq_of_gone {dir : String} (out : ∀ n ∈ names, ∀ q,
    d.place? (Path.joins root n) = some q → d.place? (Path.join dir ".gitignore") ≠ some q) :
    d'.gitignore dir = d.gitignore dir := by
  refine gitignore_congr h.limits (h.seen_eq ?_)
  intro q leads p hp node ends
  obtain ⟨n, hn, leads'⟩ := exists_lookup_of_leads found entries hp ends
  exact out n hn q (place?_eq_some.2 ⟨_, leads', rfl⟩) leads

theorem records_eq {f : Filter} {paths : List String} (hv : d.visited f root = .ok paths) :
    ∃ paths', d'.visited f root = .ok paths' ∧
      paths'.filterMap d'.record? = paths.filterMap d.record? := by
  have hroot := entry_eq_ok.2 found
  have hdir := node?_of_lookup found
  obtain ⟨es', found'⟩ := h.lookup_dir found
  have hroot' := entry_eq_ok.2 found'
  have hdir' := node?_of_lookup found'
  have lists := (lists_of_visited hroot hv).of_dirs h.limits h.exists_dir_before hdir hdir'
  have hv' := visited_of_lists hroot' lists
  refine ⟨_, hv', ?_⟩
  have hes := Listing.wellFormed_of_node? d.wellFormed hdir
  have hes' := Listing.wellFormed_of_node? d'.wellFormed hdir'
  rw [d'.filterMap_record?, d.filterMap_record?, filter_isText_visited hroot hv,
    filter_isText_visited hroot' hv', record?_eq found entries h]
  simp only [isFile_and_isText_eq found entries h]
  rw [Listing.filter_entriesBelow_eq hes hes']
  intro n selected
  have read := (Bool.and_eq_true_iff.1 (Bool.and_eq_true_iff.1 selected).2).2
  have out : place ++ n ∉ names.map (place ++ ·) := by
    intro hn
    obtain ⟨n', hn, same⟩ := List.mem_map.1 hn
    rw [List.append_cancel_left same] at hn
    rw [(entries n hn).2] at read
    cases read
  have same := h.elsewhere _ out
  rw [Listing.shell?, Listing.shell?, Listing.node?_append hdir, Listing.node?_append hdir'] at same
  rw [Listing.exists_entry_iff, Listing.exists_entry_iff, Listing.shell?, Listing.shell?, same]

end Gone

section Scan
variable {d : Disk} {c : Config} {f : Filter} {place : List String} {es : Listing}
  (hf : Filter.ofConfig d c = .ok f)

section Skip
variable (hroot : d.entry c.root = .ok (place, .dir es))
include hf hroot

theorem scan_skip_of_lists (lists : d.Lists f c.root place es) :
    ∃ s, d.visited f c.root = .ok (d.reached f c.root) ∧
      d.scan { c with errorPolicy := .skip } = .ok s ∧
      s.stats.skipped = (d.unread (d.reached f c.root)).length ∧
      ∃ d', (d.unread (d.reached f c.root)).foldlM remove d = .ok d' ∧
        ((c.respectGitignore = true → ∀ u ∈ d.unread (d.reached f c.root), ∀ q,
          d.place? u = some q → d.place? (Path.join c.root ".gitignore") ≠ some q) →
        ∃ s', d'.scan { c with errorPolicy := .skip } = .ok s' ∧ s'.files = s.files) := by
  have hv := visited_of_lists hroot lists
  rw [reached_of_visited hv]
  generalize List.map _ _ = paths at hv
  obtain ⟨s, ended, covers⟩ := exists_scan (c := { c with errorPolicy := .skip }) hf hv (by simp)
  obtain ⟨names, unread, once, entries⟩ := exists_unread_names hroot hv
  have found := entry_eq_ok.1 hroot
  have untouched : FilesGone (([] : List (List String)).map (place ++ ·)) d d := .refl d
  obtain ⟨d', removed, gone⟩ :=
    exists_foldlM_remove found untouched once fun n hn => (entries n hn).1
  refine ⟨s, hv, ended, covers.skipped_eq, d', unread ▸ removed, fun out => ?_⟩
  obtain ⟨paths', hv', records⟩ := records_eq found entries gone hv
  have hf' : Filter.ofConfig d' c = .ok f := by
    refine (Filter.ofConfig_congr fun respects => ?_).trans hf
    refine gitignore_eq_of_gone found entries gone fun n hn q leads => ?_
    exact out respects _ (unread ▸ List.mem_map_of_mem hn) q leads
  obtain ⟨s', ended', covers'⟩ :=
    exists_scan (c := { c with errorPolicy := .skip }) hf' hv' (by simp)
  exact ⟨s', ended', by rw [covers.files, covers'.files, records]⟩

theorem scan_skip_of_not_lists (refused : ¬ d.Lists f c.root place es) :
    ∃ e more, d.visits f c.root = (d.reached f c.root).map .ok ++ .error e :: more ∧
      d.Refuses f c.root place es e ∧
      d.scan { c with errorPolicy := .skip } = .error (.walk e.path e.fault) := by
  obtain ⟨e, more, hv, eq, refuses⟩ := exists_fault_of_not_lists hroot refused
  obtain ⟨s, run⟩ := Scan.exists_foldlM_skip d (d.reached f c.root) { root := c.root }
  refine ⟨e, more, eq, refuses, ?_⟩
  rw [scan_of_fault (c := { c with errorPolicy := .skip }) hf hv, run]
  rfl

end Skip

include hf

theorem scan_abort_of_read (all : d.unread (d.reached f c.root) = []) :
    d.scan { c with errorPolicy := .abort } = d.scan { c with errorPolicy := .skip } := by
  have same := Scan.foldlM_abort_of_read all { root := c.root }
  cases hv : d.visited f c.root with
  | ok paths =>
    rw [reached_of_visited hv] at same
    rw [scan_of_visited (c := { c with errorPolicy := .abort }) hf hv, same,
      scan_of_visited (c := { c with errorPolicy := .skip }) hf hv]
  | error e =>
    rw [scan_of_fault (c := { c with errorPolicy := .abort }) hf hv, same,
      scan_of_fault (c := { c with errorPolicy := .skip }) hf hv]

theorem scan_abort_of_unread {u : String} {more : List String}
    (first : d.unread (d.reached f c.root) = u :: more) :
    ∃ fault, d.readText u = .error fault ∧
      d.scan { c with errorPolicy := .abort } = .error (.read ⟨u, fault⟩) := by
  obtain ⟨fault, hfault, stopped⟩ := Scan.foldlM_abort_of_unread first { root := c.root }
  refine ⟨fault, hfault, ?_⟩
  cases hv : d.visited f c.root with
  | ok paths =>
    rw [reached_of_visited hv] at stopped
    rw [scan_of_visited (c := { c with errorPolicy := .abort }) hf hv, stopped]
    rfl
  | error e =>
    rw [scan_of_fault (c := { c with errorPolicy := .abort }) hf hv, stopped]
    rfl

end Scan

/-- What a scan makes of the files that cannot be read. If it skips them it comes to its end, counts
them, and keeps what it keeps where they have been removed; only the rules of a `.gitignore` must
not be removed with them. If it aborts, the first of them ends it. A directory that cannot be listed
ends either scan, but not before a file that the walk comes to first. -/
theorem scan_unread (d : Disk) (c : Config) {f : Filter} {place : List String} {es : Listing}
    (hf : Filter.ofConfig d c = .ok f) (hroot : d.entry c.root = .ok (place, .dir es)) :
    (d.Lists f c.root place es → ∃ s, d.visited f c.root = .ok (d.reached f c.root) ∧
      d.scan { c with errorPolicy := .skip } = .ok s ∧
      s.stats.skipped = (d.unread (d.reached f c.root)).length ∧
      ∃ d', (d.unread (d.reached f c.root)).foldlM remove d = .ok d' ∧
        ((c.respectGitignore = true → ∀ u ∈ d.unread (d.reached f c.root), ∀ q,
          d.place? u = some q → d.place? (Path.join c.root ".gitignore") ≠ some q) →
        ∃ s', d'.scan { c with errorPolicy := .skip } = .ok s' ∧ s'.files = s.files)) ∧
    (¬ d.Lists f c.root place es → ∃ e more,
      d.visits f c.root = (d.reached f c.root).map .ok ++ .error e :: more ∧
      d.Refuses f c.root place es e ∧
      d.scan { c with errorPolicy := .skip } = .error (.walk e.path e.fault)) ∧
    (d.unread (d.reached f c.root) = [] →
      d.scan { c with errorPolicy := .abort } = d.scan { c with errorPolicy := .skip }) ∧
    ∀ u more, d.unread (d.reached f c.root) = u :: more → ∃ fault, d.readText u = .error fault ∧
      d.scan { c with errorPolicy := .abort } = .error (.read ⟨u, fault⟩) :=
  ⟨scan_skip_of_lists hf hroot, scan_skip_of_not_lists hf hroot, scan_abort_of_read hf,
    fun _ _ => scan_abort_of_unread hf⟩

def locked : Disk where
  root := .file "a.ts" "class A".toUTF8 (.dir "src" .nil .nil)
  wellFormed := ⟨by decide, by decide, by decide, by decide, trivial, trivial⟩
  limits := { reading := fun place => if place = ["src"] then some .permissionDenied else none }

theorem lookup_locked : locked.lookup "." = .ok (.found [] (.dir locked.root)) ∧
    locked.lookup "./a.ts" = .ok (.found ["a.ts"] (.file "class A".toUTF8)) := by
  have dot : Path.steps "." = ["."] := by decide
  have file : Path.steps "./a.ts" = [".", "a.ts"] := by decide
  rw [lookup, lookup, dot, file]
  constructor <;> simp [resolve, Listing.node?, Listing.find?, locked, Path.isAbsolute]

theorem visits_locked : locked.visits sampleFilter "." =
    [.ok "./a.ts", .error ⟨"./src", .permissionDenied⟩] := by
  have walked : locked.limits.list [] "." (locked.root.walk locked.limits
      (!sampleFilter.excludesDir ·) [] ".") =
        [.ok "./a.ts", .error ⟨"./src", .permissionDenied⟩] := by
    decide +kernel
  have file : locked.isFile "./a.ts" = true :=
    isFile_eq_true.2 ⟨_, node_eq_ok.2 ⟨_, lookup_locked.2⟩⟩
  have accepted : sampleFilter.acceptsFile "./a.ts" = true := by decide +kernel
  rw [visits_of_dir (entry_eq_ok.2 lookup_locked.1), walked]
  simp [selects, file, accepted]

/-- A scan may end with an error although it skips what it cannot read, and reads all files. -/
theorem locked_stops : Filter.ofConfig locked {} = .ok sampleFilter ∧
    locked.node "." = .ok (.dir locked.root) ∧
      locked.unread (locked.reached sampleFilter ".") = [] ∧
        locked.scan { errorPolicy := .skip } = .error (.walk "./src" .permissionDenied) := by
  have decoded : String.fromUTF8? "class A".toUTF8 = some "class A" := by decide +kernel
  have text : locked.readText "./a.ts" = .ok "class A" :=
    readText_eq_ok.2 ⟨_, _, _, lookup_locked.2, by decide, rfl, decoded⟩
  refine ⟨rfl, node_eq_ok.2 ⟨_, lookup_locked.1⟩, ?_, ?_⟩
  · rw [reached, visits_locked, unread_eq_nil]
    simp [upToFault, isText, text, Except.toOption]
  · change locked.scanWith sampleFilter { errorPolicy := .skip } = _
    rw [scanWith, visits_locked]
    simp only [List.foldlM_cons, Scan.step, Scan.visit, extract, text]
    rfl

def tainted : Disk where
  root := .file "a.ts" "class A".toUTF8 (.file "b.ts" ⟨#[0xff]⟩ .nil)
  wellFormed := ⟨by decide, by decide, by decide, by decide, trivial⟩

theorem lookup_tainted : tainted.lookup "." = .ok (.found [] (.dir tainted.root)) ∧
    tainted.lookup "./a.ts" = .ok (.found ["a.ts"] (.file "class A".toUTF8)) ∧
    tainted.lookup "./b.ts" = .ok (.found ["b.ts"] (.file ⟨#[0xff]⟩)) := by
  have dot : Path.steps "." = ["."] := by decide
  have first : Path.steps "./a.ts" = [".", "a.ts"] := by decide
  have second : Path.steps "./b.ts" = [".", "b.ts"] := by decide
  rw [lookup, lookup, lookup, dot, first, second]
  refine ⟨?_, ?_, ?_⟩ <;>
    simp [resolve, Listing.node?, Listing.find?, tainted, Path.isAbsolute]

theorem readText_tainted : tainted.readText "./a.ts" = .ok "class A" ∧
    tainted.readText "./b.ts" = .error .invalidText := by
  obtain ⟨-, first, second⟩ := lookup_tainted
  have decoded : String.fromUTF8? "class A".toUTF8 = some "class A" := by decide +kernel
  have broken : String.fromUTF8? ⟨#[0xff]⟩ = none := by decide +kernel
  refine ⟨readText_eq_ok.2 ⟨_, _, _, first, rfl, rfl, decoded⟩, ?_⟩
  have content : tainted.read "./b.ts" = .ok ⟨#[0xff]⟩ := by
    rw [read, entry_eq_ok.2 second]
    rfl
  rw [readText, content]
  simp [broken, bind, Except.bind]

theorem visited_tainted : tainted.visited sampleFilter "." = .ok ["./a.ts", "./b.ts"] := by
  obtain ⟨root, first, second⟩ := lookup_tainted
  have walked : tainted.limits.list [] "." (tainted.root.walk tainted.limits
      (!sampleFilter.excludesDir ·) [] ".") = [.ok "./a.ts", .ok "./b.ts"] := by
    decide +kernel
  have files : tainted.isFile "./a.ts" = true ∧ tainted.isFile "./b.ts" = true :=
    ⟨isFile_eq_true.2 ⟨_, node_eq_ok.2 ⟨_, first⟩⟩, isFile_eq_true.2 ⟨_, node_eq_ok.2 ⟨_, second⟩⟩⟩
  have accepted : sampleFilter.acceptsFile "./a.ts" = true ∧
      sampleFilter.acceptsFile "./b.ts" = true := by decide +kernel
  rw [visited_eq_ok, visits_of_dir (entry_eq_ok.2 root), walked]
  simp [selects, files, accepted]

def taintedScan : Scan where
  root := "."
  files := [.ofSource "./a.ts" "class A"]
  stats := ⟨2, 1, 1, 1⟩
  warnings := [⟨"./b.ts", .invalidText⟩]

theorem scan_tainted : tainted.scan { errorPolicy := .skip } = .ok taintedScan := by
  obtain ⟨first, second⟩ := readText_tainted
  have declares : (FileRecord.ofSource "./a.ts" "class A").hasDeclarations = true := by
    decide +kernel
  rw [scan_of_visited (c := { errorPolicy := .skip }) (f := sampleFilter) rfl visited_tainted]
  simp only [List.foldlM_cons, Scan.visit, extract, first, second]
  simp [bind, Except.bind, Scan.add, Scan.addSkipped, declares, taintedScan, Except.mapError, pure,
    Except.pure]

/-- What is kept is what is kept where the unread file has been removed. -/
theorem tainted_skips : Filter.ofConfig tainted {} = .ok sampleFilter ∧
    tainted.entry "." = .ok ([], .dir tainted.root) ∧
      tainted.Lists sampleFilter "." [] tainted.root ∧
        tainted.scan { errorPolicy := .skip } = .ok taintedScan ∧
          (∃ d' s', tainted.remove "./b.ts" = .ok d' ∧
            d'.scan { errorPolicy := .skip } = .ok s' ∧
              s'.files = [.ofSource "./a.ts" "class A"]) ∧
            tainted.scan {} = .error (.read ⟨"./b.ts", .invalidText⟩) := by
  obtain ⟨first, second⟩ := readText_tainted
  have root := entry_eq_ok.2 lookup_tainted.1
  have lists := lists_of_visited root visited_tainted
  have reached := reached_of_visited visited_tainted
  have unread : tainted.unread ["./a.ts", "./b.ts"] = ["./b.ts"] := by
    simp [Disk.unread, isText, first, second, Except.toOption]
  refine ⟨rfl, root, lists, scan_tainted, ?_⟩
  obtain ⟨skips, -, -, aborts⟩ := scan_unread tainted {} (f := sampleFilter) rfl root
  rw [reached, unread] at skips aborts
  obtain ⟨s, -, ended, -, d', removed, kept⟩ := skips lists
  obtain ⟨s', ended', same⟩ := kept (by simp)
  obtain rfl := Except.ok.inj (scan_tainted.symm.trans ended)
  obtain ⟨fault, read, stopped⟩ := aborts _ _ rfl
  obtain rfl := Except.error.inj (second.symm.trans read)
  exact ⟨⟨d', s', (bind_pure _).symm.trans removed, ended', same⟩, stopped⟩

end Disk

end Snapshot

import Snapshot.Proofs.Scan.Policies

/-!
# Leaving out more

A configuration that leaves out what another one does, and perhaps more, finds nothing that the
other does not find. A rule that takes paths back in can only undo other rules of its file.
-/

namespace Snapshot

structure Config.StricterThan (c' c : Config) : Prop where
  root : c'.root = c.root
  errorPolicy : c'.errorPolicy = c.errorPolicy
  excludedDirs : c.excludedDirs ⊆ c'.excludedDirs
  ignorePatterns : c.ignorePatterns ⊆ c'.ignorePatterns
  excludedSuffixes : c.excludedSuffixes ⊆ c'.excludedSuffixes
  sourceSuffixes : c'.sourceSuffixes ⊆ c.sourceSuffixes
  respectGitignore : c.respectGitignore = true → c'.respectGitignore = true

namespace Filter

structure StricterThan (f' f : Filter) : Prop where
  excludedDirs : f.excludedDirs ⊆ f'.excludedDirs
  excludedSuffixes : f.excludedSuffixes ⊆ f'.excludedSuffixes
  sourceSuffixes : f'.sourceSuffixes ⊆ f.sourceSuffixes
  ignores : ∀ path isDir, f.ignores path isDir = true → f'.ignores path isDir = true

theorem mem_of_mapM_compilePattern {patterns : List String} {shapes : List Glob.Shape}
    (h : patterns.mapM compilePattern = .ok shapes) {shape : Glob.Shape} :
    shape ∈ shapes ↔ ∃ pattern ∈ patterns, compilePattern pattern = .ok shape := by
  induction patterns generalizing shapes with
  | nil =>
    obtain rfl := Except.ok.inj h
    simp
  | cons pattern patterns ih =>
    rw [List.mapM_cons] at h
    cases first : compilePattern pattern with
    | error e => simp [first, bind, Except.bind] at h
    | ok s =>
      cases further : patterns.mapM compilePattern with
      | error e => simp [first, further, bind, Except.bind] at h
      | ok rest =>
        simp only [first, further, bind, Except.bind] at h
        obtain rfl := Except.ok.inj h
        simp only [List.mem_cons, ih further, exists_eq_or_imp, first, Except.ok.injEq,
          @eq_comm _ s]

theorem hasSuffix_mono {suffixes suffixes' : List String} (h : suffixes ⊆ suffixes')
    {name : String} (has : hasSuffix name suffixes = true) : hasSuffix name suffixes' = true := by
  obtain ⟨s, hs, ends⟩ := List.any_eq_true.1 has
  exact List.any_eq_true.2 ⟨s, h hs, ends⟩

theorem stricterThan_ofConfig {d : Disk} {c c' : Config} {f f' : Filter} (h : c'.StricterThan c)
    (hf : ofConfig d c = .ok f) (hf' : ofConfig d c' = .ok f') : f'.StricterThan f := by
  obtain ⟨shapes, compiled, rfl⟩ := ofConfig_eq_ok.1 hf
  obtain ⟨shapes', compiled', rfl⟩ := ofConfig_eq_ok.1 hf'
  refine ⟨h.excludedDirs, h.excludedSuffixes, h.sourceSuffixes, fun path isDir ignored => ?_⟩
  rcases Bool.or_eq_true_iff.1 ignored with ignored | ignored
  · obtain ⟨shape, hshape, accepts⟩ := List.any_eq_true.1 ignored
    obtain ⟨pattern, known, compiles⟩ := (mem_of_mapM_compilePattern compiled).1 hshape
    have hshape' := (mem_of_mapM_compilePattern compiled').2
      ⟨pattern, h.ignorePatterns known, compiles⟩
    exact Bool.or_eq_true_iff.2 (.inl (List.any_eq_true.2 ⟨shape, hshape', accepts⟩))
  · -- The rules are those of the same file, so where both look at them they say the same.
    cases respects : c.respectGitignore with
    | false => simp [respects] at ignored
    | true =>
      refine Bool.or_eq_true_iff.2 (.inr ?_)
      simp only [respects, h.respectGitignore respects, h.root] at ignored ⊢
      exact ignored

namespace StricterThan
variable {f f' : Filter} (h : f'.StricterThan f)
include h

theorem excludesDir {path : String} (excluded : f.excludesDir path = true) :
    f'.excludesDir path = true := by
  rcases Bool.or_eq_true_iff.1 excluded with named | ignored
  · refine Bool.or_eq_true_iff.2 (.inl ?_)
    cases name : Path.fileName? path with
    | none => simp [name] at named
    | some n =>
      rw [name, Option.any_some, List.contains_iff_mem] at named
      rw [Option.any_some, List.contains_iff_mem]
      exact h.excludedDirs named
  · exact Bool.or_eq_true_iff.2 (.inr (h.ignores path true ignored))

theorem acceptsName {name : String} (accepted : f'.acceptsName name = true) :
    f.acceptsName name = true := by
  obtain ⟨source, no_excluded⟩ := Bool.and_eq_true_iff.1 accepted
  refine Bool.and_eq_true_iff.2 ⟨hasSuffix_mono h.sourceSuffixes source, ?_⟩
  cases excluded : hasSuffix name f.excludedSuffixes with
  | false => rfl
  | true => simp [hasSuffix_mono h.excludedSuffixes excluded] at no_excluded

theorem acceptsFile {path : String} (accepted : f'.acceptsFile path = true) :
    f.acceptsFile path = true := by
  obtain ⟨named, kept⟩ := Bool.and_eq_true_iff.1 accepted
  refine Bool.and_eq_true_iff.2 ⟨?_, ?_⟩
  · cases name : Path.fileName? path with
    | none => simp [name] at named
    | some n =>
      rw [name] at named
      exact h.acceptsName named
  · cases ignored : f.ignores path false with
    | false => rfl
    | true => simp [h.ignores path false ignored] at kept

end StricterThan

end Filter

theorem Limits.list_sublist (l : Limits) (place : List String) (path : String)
    {inside inside' : List (Except WalkFault String)} (h : inside'.Sublist inside) :
    (l.list place path inside').Sublist (l.list place path inside) := by
  unfold list
  cases l.listing place path with
  | none => exact h
  | some fault => exact List.Sublist.refl _

namespace Listing

/-- A walk that enters fewer directories comes to fewer entries, in the same order. -/
theorem walk_sublist {enter enter' : String → Bool}
    (h : ∀ path, enter' path = true → enter path = true) (l : Limits) (place : List String)
    (path : String) (es : Listing) :
    (es.walk l enter' place path).Sublist (es.walk l enter place path) := by
  induction es generalizing place path with
  | nil => exact List.Sublist.refl _
  | file name _ rest ih | link name _ rest ih | sink name rest ih =>
    exact (ih place path).cons_cons _
  | dir name entries rest ihe ih =>
    refine List.Sublist.append ?_ (ih place path)
    by_cases into : enter' (Path.join path name) = true
    · rw [if_pos into, if_pos (h _ into)]
      exact l.list_sublist _ _ (ihe _ _)
    · rw [if_neg into]
      exact List.nil_sublist _

end Listing

namespace Disk

theorem walk_sublist {d : Disk} {enter enter' : String → Bool}
    (h : ∀ path, enter' path = true → enter path = true) (root : String) :
    (d.walk enter' root).Sublist (d.walk enter root) := by
  have below : ∀ place (es : Listing),
      (d.limits.list place root (es.walk d.limits enter' place root)).Sublist
        (d.limits.list place root (es.walk d.limits enter place root)) :=
    fun place es => d.limits.list_sublist _ _ (Listing.walk_sublist h d.limits place root es)
  unfold Disk.walk
  cases d.entry root false with
  | error e => exact List.Sublist.refl _
  | ok there =>
    obtain ⟨place, node⟩ := there
    cases node with
    | file _ | sink => exact List.Sublist.refl _
    | dir es => exact below place es
    | link target =>
      cases d.entry root with
      | error e => exact List.Sublist.refl _
      | ok there =>
        obtain ⟨place, node⟩ := there
        cases node with
        | dir es => exact (below place es).cons_cons _
        | file _ | link _ | sink => exact List.Sublist.refl _

theorem visits_sublist (d : Disk) {f f' : Filter} (h : f'.StricterThan f) (root : String) :
    (d.visits f' root).Sublist (d.visits f root) := by
  have enters : ∀ path, (!f'.excludesDir path) = true → (!f.excludesDir path) = true := by
    intro path into
    cases excluded : f.excludesDir path with
    | false => rfl
    | true => simp [h.excludesDir excluded] at into
  refine ((walk_sublist enters root).filter _).trans
    (List.monotone_filter_right _ fun item selected => ?_)
  cases item with
  | error e => rfl
  | ok path =>
    obtain ⟨file, accepted⟩ := Bool.and_eq_true_iff.1 selected
    exact Bool.and_eq_true_iff.2 ⟨file, h.acceptsFile accepted⟩

theorem visited_sublist {d : Disk} {f f' : Filter} (h : f'.StricterThan f) {root : String}
    {paths : List String} (hv : d.visited f root = .ok paths) :
    ∃ paths', d.visited f' root = .ok paths' ∧ paths'.Sublist paths := by
  have fewer := d.visits_sublist h root
  rw [visited_eq_ok.1 hv] at fewer
  obtain ⟨paths', part, same⟩ := List.sublist_map_iff.1 fewer
  exact ⟨paths', visited_eq_ok.2 same, part⟩

/-- A scan that leaves out more finds a part of what another one finds, and comes to its end where
that one does. -/
theorem scan_sublist {d : Disk} {c c' : Config} {f f' : Filter} (h : c'.StricterThan c)
    (hf : Filter.ofConfig d c = .ok f) (hf' : Filter.ofConfig d c' = .ok f') {s : Scan}
    (hs : d.scan c = .ok s) :
    ∃ s', d.scan c' = .ok s' ∧ s'.files.Sublist s.files ∧
      s'.stats.visited ≤ s.stats.visited ∧ s'.stats.extracted ≤ s.stats.extracted ∧
      s'.stats.retained ≤ s.stats.retained ∧ s'.stats.skipped ≤ s.stats.skipped := by
  obtain ⟨paths, hv, covers⟩ := covers_of_scan hf hs
  obtain ⟨paths', hv', fewer⟩ := visited_sublist (Filter.stricterThan_ofConfig h hf hf') hv
  rw [← h.root] at hv'
  have read : c'.errorPolicy = .abort → d.unread paths' = [] := by
    intro abort
    have all := (scan_eq_ok hf hv hs).2 (h.errorPolicy ▸ abort)
    rw [unread_eq_nil] at all ⊢
    exact fun path hp => all path (fewer.subset hp)
  obtain ⟨s', ended, covers'⟩ := exists_scan hf' hv' read
  have records := fewer.filterMap d.record?
  have files : s'.files.Sublist s.files := by
    rw [covers.files, covers'.files]
    exact records.filter _
  refine ⟨s', ended, files, ?_, ?_, ?_, ?_⟩
  · rw [covers.visited, covers'.visited]
    exact fewer.length_le
  · rw [covers.extracted, covers'.extracted]
    exact records.length_le
  · rw [covers.retained, covers'.retained]
    exact files.length_le
  · rw [covers.skipped_eq, covers'.skipped_eq]
    exact (fewer.filter _).length_le

def stricterSample : Config where
  excludedDirs := ["src", "node_modules", "dist", "build", "public", ".git"]
  ignorePatterns := ["*.d.ts"]
  respectGitignore := true

theorem stricterSample_sublist : stricterSample.StricterThan {} ∧
    Filter.ofConfig sample {} = .ok sampleFilter ∧
      (∃ f', Filter.ofConfig sample stricterSample = .ok f') ∧
      sample.scan {} = .ok sampleScan ∧ ∃ s', sample.scan stricterSample = .ok s' ∧
        s'.files.Sublist sampleScan.files ∧ s'.stats.visited ≤ 1 := by
  have stricter : stricterSample.StricterThan {} :=
    ⟨rfl, rfl, by decide, by decide, by decide, by decide, fun _ => rfl⟩
  have compiled : ∃ f', Filter.ofConfig sample stricterSample = .ok f' :=
    ⟨_, Filter.ofConfig_eq_ok.2 ⟨_, rfl, rfl⟩⟩
  refine ⟨stricter, rfl, compiled, scan_sample, ?_⟩
  obtain ⟨f', hf'⟩ := compiled
  obtain ⟨s', ended, files, visited, -⟩ :=
    scan_sublist (f := sampleFilter) stricter rfl hf' scan_sample
  exact ⟨s', ended, files, visited⟩

end Disk

end Snapshot

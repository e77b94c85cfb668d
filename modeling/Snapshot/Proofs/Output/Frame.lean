import Snapshot.Proofs.Output.Files

/-!
# What writing a snapshot leaves alone

If both files of a snapshot can be opened and have room, they hold the two texts afterwards,
whatever they held before. A report that cannot be opened leaves the disk as it was; if only the
other file cannot be opened, the report has its new text. A file for which the room does not last is
left with a beginning of its text, so what it held before is lost. Nothing else is changed in any of
these cases.
-/

namespace Snapshot.Disk

section Read
variable {d : Disk} {path : String}

theorem readText_of_file {place : List String} {text : String} (leads : d.place? path = some place)
    (there : d.root.node? place = some (.file text.toUTF8))
    (allowed : d.limits.reading place = none) : d.readText path = .ok text := by
  have found := entry_eq_ok.1 (entry_eq_ok_iff_place?.2 ⟨leads, there⟩)
  refine readText_eq_ok.2 ⟨place, _, _, found, allowed, rfl, ?_⟩
  rw [String.fromUTF8?, String.toUTF8_eq_toByteArray, dif_pos text.isValidUTF8]
  rfl

structure Shows (d : Disk) (path text : String) : Prop where
  node : d.node path = .ok (.file text.toUTF8)
  read : (∀ place, d.place? path = some place → d.limits.reading place = none) →
    d.readText path = .ok text

theorem shows_of_file {place : List String} {text : String} (leads : d.place? path = some place)
    (there : d.root.node? place = some (.file text.toUTF8)) : d.Shows path text :=
  ⟨node_eq_ok_iff_place?.2 ⟨place, leads, there⟩,
    fun allowed => readText_of_file leads there (allowed place leads)⟩

end Read

section Snapshot
variable {d : Disk} {r : Report} {dir : String} {format : Format} {paths : SnapshotPaths}
  (same : paths = .inDir dir format)
include same

section Regular
variable (opened : d.Opens paths.report) (regular : d.Regular paths.report)
include opened regular

variable (fits : d.Fits paths.report (r.text format).toUTF8)
include fits

section Both
variable (opened' : d.Opens paths.markdown) (regular' : d.Regular paths.markdown)
  (apart : ∀ p, d.place? paths.report = some p → d.place? paths.markdown ≠ some p)
include opened' regular' apart

theorem writeSnapshot_of_both_fit (fits' : d.Fits paths.markdown r.toMarkdown.toUTF8) :
    ∃ d' p q, d.writeSnapshot r dir format = (d', .ok paths) ∧
      d.place? paths.report = some p ∧ d.place? paths.markdown = some q ∧ FilesAt [p, q] d d' ∧
      d'.Shows paths.report (r.text format) ∧ d'.Shows paths.markdown r.toMarkdown := by
  obtain ⟨d₁, p, first, leads, files, there⟩ := overwrite_of_fits opened regular fits
  rw [← files.opens_iff] at opened'
  rw [← files.regular_iff] at regular'
  rw [← files.fits_iff] at fits'
  obtain ⟨d', q, written, leads', files', there'⟩ := overwrite_of_fits opened' regular' fits'
  have all := files.trans files'
  rw [files.place?_eq] at leads'
  refine ⟨d', p, q, writeSnapshot_of_ok same first written, leads, leads', all, ?_,
    shows_of_file ((all.place?_eq _ _).trans leads') there'⟩
  have out : p ∉ [q] := fun hp => apart p leads (List.mem_singleton.1 hp ▸ leads')
  exact shows_of_file ((all.place?_eq _ _).trans leads) (files'.node?_file there out)

end Both

end Regular

theorem exists_writeSnapshot (unlimited : d.limits = {}) {p q : List String}
    (leads : d.place? paths.report = some p) (leads' : d.place? paths.markdown = some q)
    (ne : p ≠ q) (plain : ∀ place ∈ [p, q], ∀ node, d.root.node? place = some node →
      ∃ content, node = .file content) (r : Report) :
    ∃ d', d.writeSnapshot r dir format = (d', .ok paths) ∧ FilesAt [p, q] d d' ∧
      d'.Shows paths.report (r.text format) ∧ d'.Shows paths.markdown r.toMarkdown := by
  have no_dir : ∀ place ∈ [p, q], ∀ es, d.root.node? place ≠ some (.dir es) := by
    intro place hp es hdir
    obtain ⟨content, same⟩ := plain place hp _ hdir
    cases same
  have no_sink : ∀ place ∈ [p, q], d.root.node? place ≠ some .sink := by
    intro place hp sink
    obtain ⟨content, same⟩ := plain place hp _ sink
    cases same
  have allowed : ∀ place, d.limits.writing place = none := by
    rw [unlimited]
    exact fun _ => rfl
  obtain ⟨d', p', q', written, report, markdown, files, shows⟩ :=
    writeSnapshot_of_both_fit (r := r) same ⟨p, leads, no_dir p (by simp), allowed p⟩
      (regular_of_place? leads (no_sink p (by simp))) (fits_of_unlimited unlimited _ _)
      ⟨q, leads', no_dir q (by simp), allowed q⟩
      (regular_of_place? leads' (no_sink q (by simp))) (by simpa [leads, leads'] using ne.symm)
      (fits_of_unlimited unlimited _ _)
  obtain rfl := Option.some.inj (leads.symm.trans report)
  obtain rfl := Option.some.inj (leads'.symm.trans markdown)
  exact ⟨d', written, files, shows⟩

end Snapshot

end Snapshot.Disk

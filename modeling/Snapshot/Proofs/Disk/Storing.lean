import Snapshot.Proofs.Disk.Writing

/-!
# Storing files

A file that is opened for writing is a file afterwards, with its new content or with a beginning of
it, and nothing else is changed. A sink is opened and left as it is. What was stored to its end is
stored once more without any change.
-/

namespace Snapshot

namespace Limits

def HasRoom (l : Limits) (place : List String) (content : ByteArray) : Prop :=
  ∀ n fault, l.room place = some (n, fault) → content.size ≤ n

variable {l : Limits} {place : List String} {content : ByteArray}

theorem kept_of_hasRoom (h : l.HasRoom place content) :
    l.kept place content = (content, .ok ()) := by
  unfold kept
  cases full : l.room place with
  | none => rfl
  | some room =>
    obtain ⟨n, fault⟩ := room
    simp only
    rw [if_neg (Nat.not_lt.2 (h n fault full))]

theorem exists_kept (h : ¬ l.HasRoom place content) : ∃ n fault, n < content.size ∧
    l.kept place content = (content.extract 0 n, .error fault) := by
  simp only [HasRoom, not_forall, Nat.not_le] at h
  obtain ⟨n, fault, full, less⟩ := h
  refine ⟨n, fault, less, ?_⟩
  rw [kept, full]
  exact if_pos less

end Limits

namespace Disk

def Takes (d : Disk) (dir : List String) (name : String) : Prop :=
  ValidName name ∧ ∃ es, d.root.node? dir = some (.dir es) ∧
    ∀ node, es.find? name = some node → ∃ content, node = .file content

section Put
variable {d : Disk} {dir : List String} {name : String}

theorem put_of_valid (valid : ValidName name) (content : ByteArray) :
    d.put dir name (.file content) trivial =
      { d with
        root := d.root.changeAt (·.put name (.file content)) dir
        wellFormed := Listing.WellFormed.changeAt
          (fun _ hes => hes.put valid (show (Node.file content).WellFormed from trivial)) dir
          d.wellFormed } :=
  dif_pos valid

theorem node?_put (h : d.Takes dir name) (content : ByteArray) :
    (d.put dir name (.file content) trivial).root.node? (dir ++ [name]) =
      some (.file content) := by
  obtain ⟨valid, es, hdir, -⟩ := h
  rw [put_of_valid valid]
  exact (Listing.node?_concat (Listing.node?_changeAt _ hdir) name).trans
    (Listing.find?_put_self name _ es)

theorem filesAt_put (h : d.Takes dir name) (content : ByteArray) :
    FilesAt [dir ++ [name]] d (d.put dir name (.file content) trivial) := by
  have there := node?_put h content
  obtain ⟨valid, es, hdir, old⟩ := h
  rw [put_of_valid valid] at there ⊢
  refine ⟨rfl, rfl, fun p hp node hnode => ?_, fun p hp => ?_, fun p hp => ?_⟩
  · rw [List.mem_singleton.1 hp, Listing.node?_concat hdir] at hnode
    exact old node hnode
  · exact ⟨content, List.mem_singleton.1 hp ▸ there⟩
  · refine Listing.shell?_changeAt_of_ne hdir (fun m ne => Listing.find?_put_of_ne ne _ es)
      (fun entries same => ?_) (fun entries same => ?_) (by simpa using hp)
    · obtain ⟨_, same⟩ := old _ same
      cases same
    · rw [Listing.find?_put_self] at same
      cases same

theorem put_eq_self {content : ByteArray}
    (there : d.root.node? (dir ++ [name]) = some (.file content)) :
    d.put dir name (.file content) trivial = d := by
  obtain ⟨es, hdir⟩ := Listing.exists_dir_of_node? there
  have valid := Listing.validName_of_node? d.wellFormed there name (by simp)
  rw [Listing.node?_concat hdir] at there
  rw [put_of_valid valid]
  simp only [Listing.changeAt_put_eq_self d.wellFormed hdir there]

end Put

section Overwrite
variable {d d' : Disk} {path : String} {content : ByteArray}

/-- The system opens a path for writing: no directory stands there, and it is allowed. -/
def Opens (d : Disk) (path : String) : Prop :=
  ∃ place, d.place? path = some place ∧ (∀ es, d.root.node? place ≠ some (.dir es)) ∧
    d.limits.writing place = none

theorem node?_place {t : Target} (h : d.lookup path = .ok t) (node : Node) :
    d.root.node? t.place = some node ↔ t = .found t.place node := by
  cases t with
  | found place node' =>
    have there : d.root.node? place = some node' := node?_of_lookup h
    simp [Target.place, there]
  | missing dir name =>
    obtain ⟨-, es, hdir, absent⟩ := missing_of_lookup h
    simp [Target.place, Listing.node?_concat hdir, absent]

theorem openAt_eq_ok {t : Target} : d.openAt path = .ok t ↔ d.lookup path = .ok t ∧
    (∀ es, d.root.node? t.place ≠ some (.dir es)) ∧ d.limits.writing t.place = none := by
  unfold openAt
  cases leads : d.lookup path with
  | error e => simp [bind, Except.bind]
  | ok target =>
    simp only [bind, Except.bind, Except.ok.injEq]
    constructor
    · intro opened
      split at opened
      · cases opened
      · rename_i no_dir
        cases forbidden : d.limits.writing target.place with
        | some fault => simp [forbidden] at opened
        | none =>
          simp only [forbidden] at opened
          obtain rfl := Except.ok.inj opened
          refine ⟨rfl, fun es hdir => ?_, forbidden⟩
          exact no_dir _ es ((node?_place leads _).1 hdir)
    · rintro ⟨rfl, no_dir, allowed⟩
      split
      · rename_i es
        exact absurd ((node?_place leads _).2 rfl) (no_dir es)
      · simp only [allowed]
        rfl

theorem opens_iff : d.Opens path ↔ ∃ t, d.openAt path = .ok t := by
  simp only [Opens, place?_eq_some, openAt_eq_ok]
  constructor
  · rintro ⟨_, ⟨t, leads, rfl⟩, allowed⟩
    exact ⟨t, leads, allowed⟩
  · rintro ⟨t, leads, allowed⟩
    exact ⟨_, ⟨t, leads, rfl⟩, allowed⟩

theorem overwrite_of_opens (h : d.Opens path) (content : ByteArray) :
    ∃ place, d.place? path = some place ∧ d.limits.writing place = none ∧
      (d.root.node? place = some .sink ∧ d.overwrite path content = (d, .ok ()) ∨
        ∃ dir name, place = dir ++ [name] ∧ d.Takes dir name ∧ d.overwrite path content =
          (d.put dir name (.file (d.limits.kept place content).1) trivial,
            (d.limits.kept place content).2)) := by
  obtain ⟨t, opened⟩ := opens_iff.1 h
  obtain ⟨leads, no_dir, allowed⟩ := openAt_eq_ok.1 opened
  refine ⟨t.place, place?_eq_some.2 ⟨t, leads, rfl⟩, allowed, ?_⟩
  unfold overwrite
  rw [opened]
  cases t with
  | missing dir name =>
    obtain ⟨valid, es, hdir, absent⟩ := missing_of_lookup leads
    refine .inr ⟨dir, name, rfl, ⟨valid, es, hdir, by simp [absent]⟩, ?_⟩
    simp only [store, Target.place, List.getLast?_concat, List.dropLast_concat]
  | found place node =>
    have there := node?_of_lookup leads
    cases node with
    | sink => exact .inl ⟨there, rfl⟩
    | dir es => exact absurd there (no_dir es)
    | link target => exact absurd rfl (no_link_of_lookup leads target)
    | file old =>
      rcases List.eq_nil_or_concat place with rfl | ⟨dir, name, rfl⟩
      · cases there
      · rw [List.concat_eq_append] at *
        obtain ⟨es, hdir⟩ := Listing.exists_dir_of_node? there
        have valid := Listing.validName_of_node? d.wellFormed there name (by simp)
        rw [Listing.node?_concat hdir] at there
        refine .inr ⟨dir, name, rfl, ⟨valid, es, hdir, fun node same => ⟨old, ?_⟩⟩, ?_⟩
        · exact Option.some.inj (same.symm.trans there)
        · simp only [store, Target.place, List.getLast?_concat, List.dropLast_concat]

theorem overwrite_of_not_opens (h : ¬ d.Opens path) (content : ByteArray) :
    ∃ fault, d.openAt path = .error fault ∧ d.overwrite path content = (d, .error fault) := by
  unfold overwrite
  cases opened : d.openAt path with
  | error fault => exact ⟨fault, rfl, rfl⟩
  | ok t => exact absurd (opens_iff.2 ⟨t, opened⟩) h

/-- A path does not lead to a sink. -/
def Regular (d : Disk) (path : String) : Prop :=
  ∀ place, d.place? path = some place → d.root.node? place ≠ some .sink

theorem regular_of_place? {place : List String} (leads : d.place? path = some place)
    (no_sink : d.root.node? place ≠ some .sink) : d.Regular path := by
  intro place' leads'
  rwa [Option.some.inj (leads'.symm.trans leads)]

def Fits (d : Disk) (path : String) (content : ByteArray) : Prop :=
  ∀ place, d.place? path = some place → d.limits.HasRoom place content

theorem fits_of_unlimited {d : Disk} (unlimited : d.limits = {}) (path : String)
    (content : ByteArray) : d.Fits path content := by
  intro place _ n fault full
  rw [unlimited] at full
  cases full

theorem overwrite_of_fits (opened : d.Opens path) (regular : d.Regular path)
    (fits : d.Fits path content) :
    ∃ d' place, d.overwrite path content = (d', .ok ()) ∧ d.place? path = some place ∧
      FilesAt [place] d d' ∧ d'.root.node? place = some (.file content) := by
  obtain ⟨place, leads, -, ⟨sink, -⟩ | ⟨dir, name, rfl, takes, written⟩⟩ :=
    overwrite_of_opens opened content
  · exact absurd sink (regular place leads)
  · rw [d.limits.kept_of_hasRoom (fits _ leads)] at written
    exact ⟨_, _, written, leads, filesAt_put takes content, node?_put takes content⟩

section Files
variable {places : List (List String)} (h : FilesAt places d d')
include h

theorem FilesAt.opens_iff : d'.Opens path ↔ d.Opens path := by
  unfold Opens
  rw [h.place?_eq, h.limits]
  refine exists_congr fun place => and_congr_right fun _ => and_congr_left fun _ => ?_
  constructor
  · intro no_dir es hdir
    obtain ⟨es', hdir'⟩ := h.exists_dir hdir
    exact no_dir es' hdir'
  · exact h.no_dir

theorem FilesAt.fits_iff : d'.Fits path content ↔ d.Fits path content := by
  unfold Fits
  rw [h.place?_eq, h.limits]

theorem FilesAt.regular_iff : d'.Regular path ↔ d.Regular path := by
  unfold Regular
  simp only [h.place?_eq, ne_eq, h.node?_sink_iff]

end Files

/-- No write changes anything but the file to which its path leads. -/
theorem filesAt_overwrite {result : Except DiskFault Unit}
    (h : d.overwrite path content = (d', result)) :
    ∃ places, FilesAt places d d' ∧ ∀ p ∈ places, d.place? path = some p := by
  by_cases opened : d.Opens path
  · obtain ⟨place, leads, -, ⟨-, written⟩ | ⟨dir, name, rfl, takes, written⟩⟩ :=
      overwrite_of_opens opened content
    · rw [← (Prod.mk.inj (written.symm.trans h)).1]
      exact ⟨[], .refl d, by simp⟩
    · rw [← (Prod.mk.inj (written.symm.trans h)).1]
      exact ⟨_, filesAt_put takes _, fun p hp => List.mem_singleton.1 hp ▸ leads⟩
  · obtain ⟨fault, -, failed⟩ := overwrite_of_not_opens opened content
    rw [← (Prod.mk.inj (failed.symm.trans h)).1]
    exact ⟨[], .refl d, by simp⟩

def Stored (d : Disk) (path : String) (content : ByteArray) : Prop :=
  ∃ place, d.place? path = some place ∧ d.limits.writing place = none ∧
    (d.root.node? place = some .sink ∨
      d.root.node? place = some (.file content) ∧ d.limits.HasRoom place content)

theorem FilesAt.stored {places : List (List String)} (h : FilesAt places d d')
    (stored : d.Stored path content) (out : ∀ p ∈ places, d.place? path ≠ some p) :
    d'.Stored path content := by
  obtain ⟨place, leads, allowed, there⟩ := stored
  have same := h.elsewhere place fun hp => out place hp leads
  refine ⟨place, (h.place?_eq _ _).trans leads, h.limits ▸ allowed, ?_⟩
  rw [h.node?_sink_iff, ← Listing.shell?_eq_file, same, Listing.shell?_eq_file, h.limits]
  exact there

theorem stored_of_overwrite (h : d.overwrite path content = (d', .ok ())) :
    d'.Stored path content := by
  have opened : d.Opens path := by
    by_contra closed
    obtain ⟨fault, -, failed⟩ := overwrite_of_not_opens closed content
    cases (Prod.mk.inj (failed.symm.trans h)).2
  obtain ⟨place, leads, allowed, ⟨sink, written⟩ | ⟨dir, name, rfl, takes, written⟩⟩ :=
    overwrite_of_opens opened content
  · obtain ⟨rfl, -⟩ := Prod.mk.inj (written.symm.trans h)
    exact ⟨place, leads, allowed, .inl sink⟩
  · have room : d.limits.HasRoom (dir ++ [name]) content := by
      by_contra full
      obtain ⟨n, fault, -, kept⟩ := d.limits.exists_kept full
      rw [kept] at written
      cases (Prod.mk.inj (written.symm.trans h)).2
    rw [d.limits.kept_of_hasRoom room] at written
    obtain ⟨rfl, -⟩ := Prod.mk.inj (written.symm.trans h)
    have files := filesAt_put takes content
    refine ⟨_, (files.place?_eq _ _).trans leads, files.limits ▸ allowed, .inr ?_⟩
    exact ⟨node?_put takes content, files.limits ▸ room⟩

theorem Stored.no_dir (h : d.Stored path content) {place : List String}
    (leads : d.place? path = some place) (es : Listing) : d.root.node? place ≠ some (.dir es) := by
  obtain ⟨place', leads', -, there⟩ := h
  obtain rfl := Option.some.inj (leads'.symm.trans leads)
  intro hdir
  rcases there with sink | ⟨file, -⟩
  · rw [sink] at hdir
    cases hdir
  · rw [file] at hdir
    cases hdir

theorem overwrite_eq_self (h : d.Stored path content) :
    d.overwrite path content = (d, .ok ()) := by
  have no_dir : ∀ {place}, d.place? path = some place → ∀ es, d.root.node? place ≠ some (.dir es) :=
    fun leads => h.no_dir leads
  obtain ⟨place, leads, allowed, there⟩ := h
  obtain ⟨place', leads', -, ⟨-, written⟩ | ⟨dir, name, rfl, takes, written⟩⟩ :=
    overwrite_of_opens ⟨place, leads, no_dir leads, allowed⟩ content
  · exact written
  · obtain rfl := Option.some.inj (leads'.symm.trans leads)
    rcases there with sink | ⟨file, room⟩
    · obtain ⟨-, es, hdir, old⟩ := takes
      rw [Listing.node?_concat hdir] at sink
      obtain ⟨content', same⟩ := old _ sink
      cases same
    · rw [written, d.limits.kept_of_hasRoom room, put_eq_self file]

end Overwrite

end Disk

end Snapshot

import Snapshot.Output
import Snapshot.Proofs.Disk.Storing

/-!
# The files of a snapshot

Writing a snapshot changes what stands at two places at most, those to which its paths lead. If it
succeeds, writing it again changes nothing, provided that the two places are not the same.
-/

namespace Snapshot.Disk

section Snapshot
variable {d d' : Disk} {r : Report} {dir : String} {format : Format}

section Writes
variable {paths : SnapshotPaths} (same : paths = .inDir dir format)
include same

theorem writeSnapshot_of_ok {d₁ : Disk} {result : Except DiskFault Unit}
    (first : d.overwrite paths.report (r.text format).toUTF8 = (d₁, .ok ()))
    (second : d₁.overwrite paths.markdown r.toMarkdown.toUTF8 = (d', result)) :
    d.writeSnapshot r dir format =
      (d', (result.map fun _ => paths).mapError (WriteError.mk paths.markdown)) := by
  subst same
  unfold writeSnapshot
  simp only [first, second]
  cases result <;> rfl

end Writes

theorem filesAt_of_writeSnapshot {result : Except WriteError SnapshotPaths}
    (h : d.writeSnapshot r dir format = (d', result)) :
    ∃ places, FilesAt places d d' ∧ ∀ p ∈ places,
      d.place? (SnapshotPaths.inDir dir format).report = some p ∨
        d.place? (SnapshotPaths.inDir dir format).markdown = some p := by
  unfold writeSnapshot at h
  dsimp only at h
  split at h
  · rename_i d₁ fault first
    obtain ⟨rfl, -⟩ := Prod.mk.inj h
    obtain ⟨places, written, leads⟩ := filesAt_overwrite first
    exact ⟨places, written, fun p hp => .inl (leads p hp)⟩
  · rename_i d₁ first
    obtain ⟨places, written, leads⟩ := filesAt_overwrite first
    have both : ∀ {result}, d₁.overwrite (SnapshotPaths.inDir dir format).markdown
        r.toMarkdown.toUTF8 = (d', result) →
        ∃ places, FilesAt places d d' ∧ ∀ p ∈ places,
          d.place? (SnapshotPaths.inDir dir format).report = some p ∨
            d.place? (SnapshotPaths.inDir dir format).markdown = some p := by
      intro result second
      obtain ⟨more, written', leads'⟩ := filesAt_overwrite second
      simp only [written.place?_eq] at leads'
      refine ⟨places ++ more, written.trans written', fun p hp => ?_⟩
      exact (List.mem_append.1 hp).imp (leads p) (leads' p)
    split at h
    · rename_i second
      exact both ((Prod.mk.inj h).1 ▸ second)
    · rename_i second
      exact both ((Prod.mk.inj h).1 ▸ second)

theorem stored_of_writeSnapshot {paths : SnapshotPaths}
    (h : d.writeSnapshot r dir format = (d', .ok paths)) :
    paths = .inDir dir format ∧ d'.Stored paths.markdown r.toMarkdown.toUTF8 ∧
      ((∀ p, d.place? paths.report = some p → d.place? paths.markdown ≠ some p) →
        d'.Stored paths.report (r.text format).toUTF8) := by
  unfold writeSnapshot at h
  dsimp only at h
  split at h
  · cases (Prod.mk.inj h).2
  · rename_i d₁ first
    split at h
    · cases (Prod.mk.inj h).2
    · rename_i d₂ second
      obtain ⟨rfl, same⟩ := Prod.mk.inj h
      obtain rfl := Except.ok.inj same
      refine ⟨rfl, stored_of_overwrite second, fun apart => ?_⟩
      obtain ⟨_, written, -⟩ := filesAt_overwrite first
      obtain ⟨more, written', leads'⟩ := filesAt_overwrite second
      refine written'.stored (stored_of_overwrite first) fun p hp leads => ?_
      have markdown := leads' p hp
      rw [written.place?_eq] at leads markdown
      exact apart p leads markdown

theorem writeSnapshot_eq_self {paths : SnapshotPaths} (same : paths = .inDir dir format)
    (report : d.Stored paths.report (r.text format).toUTF8)
    (markdown : d.Stored paths.markdown r.toMarkdown.toUTF8) :
    d.writeSnapshot r dir format = (d, .ok paths) :=
  writeSnapshot_of_ok same (overwrite_eq_self report) (overwrite_eq_self markdown)

end Snapshot

end Snapshot.Disk

import Snapshot.Proofs.Report.Summary
import Snapshot.Proofs.Text.Case
import Snapshot.Proofs.Text.Reading

/-!
# Summaries of a project that has moved

Keywords are searched for in whole paths, so the directory of a project has a part in what its
summary holds. It has none if no keyword occurs in it and no keyword has a slash: the lower case of
a path can be cut at the slash behind the directory, and a keyword stands on one side of it.
-/

namespace Snapshot
open Text

def FileRecord.under (root : String) (r : FileRecord) : FileRecord :=
  { r with path := root ++ "/" ++ r.path }

def Path.rebase (old new path : String) : String :=
  match after? old path.toList with
  | some rest => new ++ String.ofList rest
  | none => path

def Entry.mapFile (f : String → String) (e : Entry) : Entry := { e with file := f e.file }

def CoreModule.mapFile (f : String → String) (m : CoreModule) : CoreModule :=
  { m with file := f m.file }

def Report.mapFiles (f : String → String) (r : Report) : Report where
  coreModules := r.coreModules.map (·.mapFile f)
  components := r.components.map (·.mapFile f)
  hooks := r.hooks.map (·.mapFile f)
  utilities := r.utilities.map (·.mapFile f)
  types := r.types.map (·.mapFile f)

theorem Path.rebase_append (old new rest : String) :
    rebase old new (old ++ "/" ++ rest) = new ++ "/" ++ rest := by
  have behind : after? old (old ++ "/" ++ rest).toList = some ("/" ++ rest).toList := by
    rw [after?_eq_some_iff, String.append_assoc, String.toList_append]
  calc rebase old new (old ++ "/" ++ rest) = new ++ String.ofList ("/" ++ rest).toList := by
        rw [rebase, behind]
    _ = new ++ "/" ++ rest := by rw [String.ofList_toList, String.append_assoc]

namespace Keywords

/-- A keyword that a root has no part in: it has no slash and does not occur in the root. -/
def Apart (root word : String) : Prop :=
  '/' ∉ lowercase word.toList ∧ ¬ lowercase word.toList <:+: lowercase root.toList

instance (root word : String) : Decidable (Apart root word) := inferInstanceAs (Decidable (_ ∧ _))

theorem hits_under_iff {root word : String} (h : Apart root word) (name path : String) :
    Hits word name (root ++ "/" ++ path) ↔ Hits word name path := by
  obtain ⟨no_slash, absent⟩ := h
  have parts : lowercase (root ++ "/" ++ path).toList =
      lowercase root.toList ++ '/' :: lowercase path.toList := by
    rw [String.toList_append, String.toList_append, List.append_assoc]
    exact (lowercase_append_cons (by decide +kernel) (by decide +kernel) _ _).trans
      (List.append_assoc _ _ _)
  rw [Hits, Hits, parts, infix_append_cons_iff no_slash]
  exact or_congr_right (or_iff_right absent)

theorem places_under {root : String} {keywords : List String}
    (h : ∀ word ∈ keywords, Apart root word) (name path : String) :
    places keywords name (root ++ "/" ++ path) = places keywords name path :=
  Finset.filter_congr fun i _ => hits_under_iff (h _ (List.getElem_mem i.isLt)) name path

end Keywords

namespace Report

section Moved
variable {old new : String} (list : FileRecord → List Declaration)
  (same : ∀ root r, list (FileRecord.under root r) = list r)
include same

theorem entries_under (records : List FileRecord) :
    ((records.map (·.under new)).flatMap fun r => (list r).map (·.inFile r.path)) =
      ((records.map (·.under old)).flatMap fun r => (list r).map (·.inFile r.path)).map
        (·.mapFile (Path.rebase old new)) := by
  rw [List.flatMap_map, List.flatMap_map, List.map_flatMap]
  refine List.flatMap_congr fun r _ => ?_
  rw [same, same, List.map_map]
  refine List.map_congr_left fun d _ => ?_
  simp only [Function.comp_apply, Declaration.inFile, Entry.mapFile, FileRecord.under,
    Path.rebase_append]

theorem replicates_under {β : Type} {keywords : List String}
    (apart : ∀ w ∈ keywords, Keywords.Apart old w ∧ Keywords.Apart new w)
    (make : Declaration → String → β) (move : β → β)
    (moved : ∀ d path, move (make d path) = make d (Path.rebase old new path))
    (records : List FileRecord) :
    ((records.map (·.under new)).flatMap fun r => (list r).flatMap fun d =>
        List.replicate (Keywords.places keywords d.name r.path).card (make d r.path)) =
      ((records.map (·.under old)).flatMap fun r => (list r).flatMap fun d =>
        List.replicate (Keywords.places keywords d.name r.path).card (make d r.path)).map move := by
  rw [List.flatMap_map, List.flatMap_map, List.map_flatMap]
  refine List.flatMap_congr fun r _ => ?_
  rw [same, same, List.map_flatMap]
  refine List.flatMap_congr fun d _ => ?_
  rw [List.map_replicate, moved]
  simp only [FileRecord.under, Path.rebase_append,
    Keywords.places_under fun w hw => (apart w hw).1,
    Keywords.places_under fun w hw => (apart w hw).2]

end Moved

/-- If no keyword has a slash or occurs in either of two roots, whatever the case of the letters,
the summary of a project is the same under both, except for the root in the paths. -/
theorem ofRecords_under {k : Keywords} {old new : String}
    (apart : ∀ w ∈ k.coreModule ++ k.utility, Keywords.Apart old w ∧ Keywords.Apart new w)
    (records : List FileRecord) :
    ofRecords k (records.map (·.under new)) =
      (ofRecords k (records.map (·.under old))).mapFiles (Path.rebase old new) := by
  have core := fun w hw => apart w (List.mem_append_left k.utility hw)
  have utility := fun w hw => apart w (List.mem_append_right k.coreModule hw)
  have coreModules : (ofRecords k (records.map (·.under new))).coreModules =
      (ofRecords k (records.map (·.under old))).coreModules.map
        (·.mapFile (Path.rebase old new)) := by
    rw [coreModules_ofRecords, coreModules_ofRecords]
    exact replicates_under (·.classes) (fun _ _ => rfl) core
      (fun d path => CoreModule.mk d.name "class" path d.description)
      (·.mapFile (Path.rebase old new)) (fun _ _ => rfl) records
  have utilities : (ofRecords k (records.map (·.under new))).utilities =
      (ofRecords k (records.map (·.under old))).utilities.map
        (·.mapFile (Path.rebase old new)) := by
    rw [utilities_ofRecords, utilities_ofRecords]
    exact replicates_under (·.functions) (fun _ _ => rfl) utility
      (fun d path => d.inFile path) (·.mapFile (Path.rebase old new)) (fun _ _ => rfl) records
  exact (Report.mk.injEq ..).mpr ⟨coreModules,
    entries_under (·.components) (fun _ _ => rfl) records,
    entries_under (·.hooks) (fun _ _ => rfl) records, utilities,
    entries_under (·.interfaces) (fun _ _ => rfl) records⟩

/-- The sigma at the end of the name of the old directory is not in the way. -/
theorem ofRecords_under_sigma :
    let k : Keywords := ⟨["STORE"], ["Σ"]⟩
    let file : FileRecord := { path := "ΛΟΓΟΣ/store.ts", classes := [⟨"Users", "Holds users"⟩] }
    (∀ w ∈ k.coreModule ++ k.utility, Keywords.Apart "/home/ΟΔΟΣ" w ∧ Keywords.Apart "/srv" w) ∧
      ofRecords k [file.under "/srv"] = (ofRecords k [file.under "/home/ΟΔΟΣ"]).mapFiles
        (Path.rebase "/home/ΟΔΟΣ" "/srv") ∧
      (ofRecords k [file.under "/srv"]).coreModules =
        [⟨"Users", "class", "/srv/ΛΟΓΟΣ/store.ts", "Holds users"⟩] := by
  intro k file
  have apart : ∀ w ∈ k.coreModule ++ k.utility,
      Keywords.Apart "/home/ΟΔΟΣ" w ∧ Keywords.Apart "/srv" w := by decide +kernel
  exact ⟨apart, ofRecords_under apart [file], by decide +kernel⟩

end Report
end Snapshot

import Mathlib.Data.Fintype.Card
import Mathlib.Data.List.Infix
import Mathlib.Data.List.OfFn
import Snapshot.Report.Summary

/-!
# What a summary holds

A summary is made file by file and declaration by declaration. Each class stands in it once for each
place of the list of keywords that hits its name or its path, and these entries stand together;
likewise each function. The order of the keywords does not matter, nor do decorators and imports.
-/

namespace Snapshot

theorem Text.occursIn_iff {piece s : List Char} : Text.occursIn piece s = true ↔ piece <:+: s := by
  induction s with
  | nil => rw [occursIn, List.isEmpty_iff, List.infix_nil]
  | cons c s ih =>
    rw [occursIn, Bool.or_eq_true, List.isPrefixOf_iff_prefix, ih, List.infix_cons_iff]

namespace Keywords
open Text

def Hits (keyword name path : String) : Prop :=
  lowercase keyword.toList <:+: lowercase name.toList ∨
    lowercase keyword.toList <:+: lowercase path.toList

instance (keyword name path : String) : Decidable (Hits keyword name path) :=
  inferInstanceAs (Decidable (_ ∨ _))

def places (keywords : List String) (name path : String) : Finset (Fin keywords.length) :=
  Finset.univ.filter fun i => Hits keywords[i] name path

theorem hits_eq_countP (keywords : List String) (e : Entry) :
    hits keywords e = keywords.countP (Hits · e.name e.file) := by
  refine List.countP_congr fun k _ => ?_
  rw [Bool.or_eq_true, occursIn_iff, occursIn_iff, decide_eq_true_iff, Hits]

theorem hits_eq_card (keywords : List String) (e : Entry) :
    hits keywords e = (places keywords e.name e.file).card := by
  have listed : (Finset.univ.val.map keywords.get : Multiset String) = keywords := by
    rw [Fin.univ_val_map, List.ofFn_get]
  calc hits keywords e
      = Multiset.countP (Hits · e.name e.file) (keywords : Multiset String) := by
        rw [hits_eq_countP, Multiset.coe_countP]
    _ = Multiset.countP (Hits · e.name e.file) (Finset.univ.val.map keywords.get) := by rw [listed]
    _ = (places keywords e.name e.file).card := Multiset.countP_map _ _ _

theorem hits_perm {ks ks' : List String} (h : ks.Perm ks') (e : Entry) : hits ks e = hits ks' e :=
  h.countP_eq _

end Keywords

/-- A record of the same file that differs at most in its decorators and imports. -/
def FileRecord.AlikeListed (r r' : FileRecord) : Prop :=
  ∃ decorators imports, r' = { r with decorators := decorators, imports := imports }

namespace Report

instance : Append Report where
  append r s := {
    coreModules := r.coreModules ++ s.coreModules
    components := r.components ++ s.components
    hooks := r.hooks ++ s.hooks
    utilities := r.utilities ++ s.utilities
    types := r.types ++ s.types }

theorem ofRecords_append (k : Keywords) (a b : List FileRecord) :
    ofRecords k (a ++ b) = ofRecords k a ++ ofRecords k b := by
  simp only [ofRecords, Inventory.ofRecords, List.flatMap_append]
  rfl

theorem ofRecords_congr {k k' : Keywords} (core : k.coreModule.Perm k'.coreModule)
    (utility : k.utility.Perm k'.utility) {a a' : List FileRecord}
    (alike : List.Forall₂ FileRecord.AlikeListed a a') : ofRecords k a = ofRecords k' a' := by
  have same : Inventory.ofRecords a = Inventory.ofRecords a' := by
    induction alike with
    | nil => rfl
    | cons one _ ih =>
      obtain ⟨ds, is, rfl⟩ := one
      simp only [Inventory.ofRecords, Inventory.mk.injEq] at ih
      simp only [Inventory.ofRecords, List.flatMap_cons, ih]
  simp only [ofRecords, same, Keywords.hits_perm core, Keywords.hits_perm utility]

theorem coreModules_ofRecords (k : Keywords) (a : List FileRecord) :
    (ofRecords k a).coreModules = a.flatMap fun f => f.classes.flatMap fun d =>
      List.replicate (Keywords.places k.coreModule d.name f.path).card
        ⟨d.name, "class", f.path, d.description⟩ := by
  simp only [ofRecords, Inventory.ofRecords, List.flatMap_assoc, List.flatMap_map,
    Keywords.hits_eq_card]
  rfl

theorem utilities_ofRecords (k : Keywords) (a : List FileRecord) :
    (ofRecords k a).utilities = a.flatMap fun f => f.functions.flatMap fun d =>
      List.replicate (Keywords.places k.utility d.name f.path).card
        ⟨d.name, f.path, d.description⟩ := by
  simp only [ofRecords, Inventory.ofRecords, List.flatMap_assoc, List.flatMap_map,
    Keywords.hits_eq_card]
  rfl

/-- The summary of two lists of records is the one of the first and then the one of the second.
Nothing is left out of a category or added to it, and all stands in the order of the files. The
summary is the same for the keywords in another order and for other decorators and imports. -/
theorem ofRecords_classified {k k' : Keywords} (core : k.coreModule.Perm k'.coreModule)
    (utility : k.utility.Perm k'.utility) {a a' : List FileRecord}
    (alike : List.Forall₂ FileRecord.AlikeListed a a') (b : List FileRecord) :
    let r := ofRecords k a
    ofRecords k (a ++ b) = r ++ ofRecords k b ∧
      r.components = (a.flatMap fun f => f.components.map (·.inFile f.path)) ∧
      r.hooks = (a.flatMap fun f => f.hooks.map (·.inFile f.path)) ∧
      r.types = (a.flatMap fun f => f.interfaces.map (·.inFile f.path)) ∧
      r.coreModules = (a.flatMap fun f => f.classes.flatMap fun d =>
        List.replicate (Keywords.places k.coreModule d.name f.path).card
          ⟨d.name, "class", f.path, d.description⟩) ∧
      r.utilities = (a.flatMap fun f => f.functions.flatMap fun d =>
        List.replicate (Keywords.places k.utility d.name f.path).card
          ⟨d.name, f.path, d.description⟩) ∧
      ofRecords k' a' = r :=
  ⟨ofRecords_append k a b, rfl, rfl, rfl, coreModules_ofRecords k a, utilities_ofRecords k a,
    (ofRecords_congr core utility alike).symm⟩

/-- Two keywords that differ in case only hit a class twice. -/
theorem ofRecords_store :
    let file : FileRecord := { path := "/app/userStore.ts", classes := [⟨"Users", "Holds users"⟩] }
    let file' : FileRecord := { file with imports := [⟨"React", "react"⟩] }
    let module : CoreModule := ⟨"Users", "class", "/app/userStore.ts", "Holds users"⟩
    ["store", "x", "STORE"].Perm ["STORE", "store", "x"] ∧
      List.Forall₂ FileRecord.AlikeListed [file] [file'] ∧
      Report.ofRecords ⟨["STORE", "store", "x"], []⟩ [file'] =
        Report.ofRecords ⟨["store", "x", "STORE"], []⟩ [file] ∧
      (Report.ofRecords ⟨["store", "x", "STORE"], []⟩ [file]).coreModules = [module, module] := by
  intro file file' module
  have core : ["store", "x", "STORE"].Perm ["STORE", "store", "x"] := by decide
  have alike : List.Forall₂ FileRecord.AlikeListed [file] [file'] :=
    .cons ⟨[], [⟨"React", "react"⟩], rfl⟩ .nil
  obtain ⟨-, -, -, -, -, -, same⟩ := @ofRecords_classified ⟨["store", "x", "STORE"], []⟩
    ⟨["STORE", "store", "x"], []⟩ core (List.Perm.refl []) [file] [file'] alike []
  exact ⟨core, alike, same, by decide +kernel⟩

end Report
end Snapshot

import Snapshot.Proofs.Report.Summary
import Snapshot.Proofs.Text.Case

/-!
# Keywords that stand in a name as they are written

A keyword and the text in which it is searched for are brought to lower case apart from each other.
So a keyword may be missed although it stands in the text letter by letter: a capital sigma at its
end is final, but in the text more letters may follow it. A keyword is never missed if and only if
it has no sigma that hangs on the letters around it.
-/

namespace Snapshot
open Text

namespace Keywords

theorem hits_pos_iff {keywords : List String} {e : Entry} :
    0 < hits keywords e ↔ ∃ word ∈ keywords, Hits word e.name e.file := by
  rw [hits_eq_countP, List.countP_pos_iff]
  simp only [decide_eq_true_eq]

/-- A word stands in a text, and its sigmas have the forms that they have in the word by itself. -/
def StandsKept (word text : List Char) : Prop :=
  ∃ u v, text = u ++ (word ++ v) ∧ KeepsSigmas u.reverse v word

theorem hits_of_standsKept {word : String} {e : Entry}
    (h : StandsKept word.toList e.name.toList ∨ StandsKept word.toList e.file.toList) :
    Hits word e.name e.file := by
  refine h.imp ?_ ?_
  · rintro ⟨u, v, text, kept⟩
    rw [text]
    exact infix_of_keeps kept
  · rintro ⟨u, v, text, kept⟩
    rw [text]
    exact infix_of_keeps kept

end Keywords

namespace Report

theorem count_le_count_replicate {α β : Type} [DecidableEq α] [DecidableEq β] (copies : α → Nat)
    (f : α → β) (l : List α) {a : α} (pos : 0 < copies a) :
    l.count a ≤ (l.flatMap fun x => List.replicate (copies x) (f x)).count (f a) := by
  induction l with
  | nil => exact Nat.le_refl 0
  | cons x l ih =>
    rw [List.flatMap_cons, List.count_append, List.count_cons]
    by_cases same : x = a
    · subst same
      rw [if_pos (beq_self_eq_true x), List.count_replicate_self]
      omega
    · rw [if_neg (by simpa using same)]
      omega

/-- For each class like this entry there is a core module if the word is among the keywords of core
modules, and for each function like it a utility if the word is among those of utilities. -/
def Finds (k : Keywords) (records : List FileRecord) (word : String) (e : Entry) : Prop :=
  (word ∈ k.coreModule → (Inventory.ofRecords records).classes.count e ≤
    (ofRecords k records).coreModules.count ⟨e.name, "class", e.file, e.description⟩) ∧
  (word ∈ k.utility → (Inventory.ofRecords records).functions.count e ≤
    (ofRecords k records).utilities.count e)

theorem finds_of_hits {word : String} {e : Entry} (h : Keywords.Hits word e.name e.file)
    (k : Keywords) (records : List FileRecord) : Finds k records word e := by
  constructor
  · intro known
    exact count_le_count_replicate (Keywords.hits k.coreModule)
      (fun e => CoreModule.mk e.name "class" e.file e.description) _
      (Keywords.hits_pos_iff.2 ⟨word, known, h⟩)
  · intro known
    have found := count_le_count_replicate (Keywords.hits k.utility) (fun e => e)
      (Inventory.ofRecords records).functions (Keywords.hits_pos_iff.2 ⟨word, known, h⟩)
    exact found

theorem hits_of_finds {word name : String}
    (h : Finds ⟨[word], []⟩ [{ path := "", classes := [⟨name, ""⟩] }] word ⟨name, "", ""⟩) :
    lowercase word.toList <:+: lowercase name.toList := by
  have listed := h.1 (List.mem_singleton_self word)
  have one : (Inventory.ofRecords [{ path := "", classes := [⟨name, ""⟩] }]).classes =
      [⟨name, "", ""⟩] := rfl
  rw [one, List.count_singleton_self] at listed
  obtain ⟨e, he, copies⟩ := List.mem_flatMap.1 (List.count_pos_iff.1 listed)
  obtain rfl := List.mem_singleton.1 (one ▸ he)
  obtain ⟨w, hw, hit⟩ := Keywords.hits_pos_iff.1
    (Nat.pos_of_ne_zero (List.mem_replicate.1 copies).1)
  obtain rfl := List.mem_singleton.1 hw
  rcases hit with hit | hit
  · exact hit
  · have empty : lowercase w.toList = [] := List.infix_nil.1 hit
    rw [empty]
    exact List.nil_infix

/-- A class or a function is found by each keyword that stands in its name or its path as it is
written and whose sigmas keep their forms there. A keyword finds every class and every function in
which it stands as it is written if and only if none of its sigmas is loose. -/
theorem finds_verbatim_iff (word : String) :
    (∀ k records e, Keywords.StandsKept word.toList e.name.toList ∨
        Keywords.StandsKept word.toList e.file.toList → Finds k records word e) ∧
      ((∀ k records e, word.toList <:+: e.name.toList ∨ word.toList <:+: e.file.toList →
          Finds k records word e) ↔ ¬ HasLooseSigma word.toList) := by
  refine ⟨fun k records e stands => finds_of_hits (Keywords.hits_of_standsKept stands) k records,
    fun found => ?_, fun settled k records e stands => ?_⟩
  · refine lowercase_infix_iff.1 fun s inside => ?_
    have hit := found ⟨[word], []⟩ [{ path := "", classes := [⟨String.ofList s, ""⟩] }]
      ⟨String.ofList s, "", ""⟩ (.inl (by rwa [String.toList_ofList]))
    have hit := hits_of_finds hit
    rwa [String.toList_ofList] at hit
  · have kept := lowercase_infix_iff.2 settled
    exact finds_of_hits (stands.imp (kept _) (kept _)) k records

theorem finds_whole_word :
    let file : FileRecord := { path := "ΛΟΓΟΣ/api.ts", classes := [⟨"Api", "d"⟩] }
    Keywords.StandsKept "ΛΟΓΟΣ".toList file.path.toList ∧
      Finds ⟨["ΛΟΓΟΣ"], []⟩ [file] "ΛΟΓΟΣ" ⟨"Api", file.path, "d"⟩ := by
  intro file
  have stands : Keywords.StandsKept "ΛΟΓΟΣ".toList file.path.toList :=
    ⟨[], "/api.ts".toList, by decide, by decide +kernel⟩
  exact ⟨stands, (finds_verbatim_iff "ΛΟΓΟΣ").1 ⟨["ΛΟΓΟΣ"], []⟩ [file] ⟨"Api", file.path, "d"⟩
    (.inr stands)⟩

/-- The final sigma of the keyword is not final in the path. -/
theorem not_finds_inside_word :
    let file : FileRecord := { path := "ΛΟΓΟΣΗΜΑ/api.ts", classes := [⟨"Api", "d"⟩] }
    let keywords : Keywords := ⟨["ΛΟΓΟΣ"], []⟩
    "ΛΟΓΟΣ".toList <:+: file.path.toList ∧ (ofRecords keywords [file]).coreModules = [] ∧
      ¬ Finds keywords [file] "ΛΟΓΟΣ" ⟨"Api", "ΛΟΓΟΣΗΜΑ/api.ts", "d"⟩ := by
  intro file keywords
  have none_found : (ofRecords keywords [file]).coreModules = [] := by decide +kernel
  refine ⟨by decide, none_found, fun found => ?_⟩
  have listed := found.1 (by decide)
  rw [none_found] at listed
  exact absurd listed (by decide)

end Report
end Snapshot

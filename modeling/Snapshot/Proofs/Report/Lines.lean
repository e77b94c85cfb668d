import Snapshot.Proofs.Extraction.Invariant
import Snapshot.Report.Markdown
import Snapshot.Report.Summary

/-!
# The lines of a rendering

Nothing is escaped in a rendering, and yet each entry takes one line. A name is a word of the
source, a description has no other blanks than spaces, and of the path only the last component is
shown. So no source can make a line that looks like a heading, or one that looks like another entry.
-/

namespace Snapshot

def Entry.line (e : Entry) : String :=
  "- **" ++ e.name ++ "** (" ++ (Path.fileName? e.file).getD "" ++ "): " ++ e.description

namespace Report

def heading (title : String) : String := "## " ++ title

def sectionLines (title : String) (entries : List Entry) : List String :=
  if entries.isEmpty then [] else [heading title, ""] ++ entries.map Entry.line ++ [""]

def lines (r : Report) : List String :=
  ["# Project Snapshot", ""] ++
    sectionLines "Core Modules" (r.coreModules.map CoreModule.toEntry) ++
    sectionLines "UI Components" r.components ++
    sectionLines "React Hooks" r.hooks ++
    sectionLines "Utility Functions" r.utilities ++
    sectionLines "Key Types and Interfaces" r.types

def headingFor (title : String) (count : Nat) : List String :=
  if count = 0 then [] else [heading title]

def headings (r : Report) : List String :=
  headingFor "Core Modules" r.coreModules.length ++
    headingFor "UI Components" r.components.length ++
    headingFor "React Hooks" r.hooks.length ++
    headingFor "Utility Functions" r.utilities.length ++
    headingFor "Key Types and Interfaces" r.types.length

def isHeading (line : List Char) : Bool := "## ".toList.isPrefixOf line

def isBullet (line : List Char) : Bool := "- **".toList.isPrefixOf line

theorem toList_heading (title : String) :
    (heading title).toList = '#' :: '#' :: ' ' :: title.toList := String.toList_append

theorem exists_toList_line (e : Entry) :
    ∃ t, e.line.toList = '-' :: ' ' :: '*' :: '*' :: t := by
  simp [Entry.line]

theorem isHeading_heading (title : String) : isHeading (heading title).toList = true := by
  rw [toList_heading]
  rfl

theorem isBullet_heading (title : String) : isBullet (heading title).toList = false := by
  rw [toList_heading]
  rfl

theorem isHeading_line (e : Entry) : isHeading e.line.toList = false := by
  obtain ⟨t, ht⟩ := exists_toList_line e
  rw [ht]
  rfl

theorem isBullet_line (e : Entry) : isBullet e.line.toList = true := by
  obtain ⟨t, ht⟩ := exists_toList_line e
  rw [ht]
  rfl

theorem filter_sectionLines (title : String) (entries : List Entry) :
    (sectionLines title entries).filter (isHeading ·.toList) =
      headingFor title entries.length := by
  have none_of_lines : (entries.map Entry.line).filter (isHeading ·.toList) = [] := by
    rw [List.filter_map, List.filter_eq_nil_iff.2 fun e _ => by simp [isHeading_line], List.map_nil]
  have blank : isHeading [] = false := rfl
  cases entries with
  | nil => rfl
  | cons e es =>
    rw [sectionLines, headingFor, List.isEmpty_cons, if_neg Bool.false_ne_true, List.filter_append,
      List.filter_append, none_of_lines]
    simp [isHeading_heading, blank]

theorem countP_sectionLines (title : String) (entries : List Entry) :
    (sectionLines title entries).countP (isBullet ·.toList) = entries.length := by
  have each_line : (entries.map Entry.line).countP (isBullet ·.toList) = entries.length := by
    rw [List.countP_map, List.countP_eq_length]
    exact fun e _ => isBullet_line e
  have blank : isBullet [] = false := rfl
  cases entries with
  | nil => rfl
  | cons e es =>
    rw [sectionLines, List.isEmpty_cons, if_neg Bool.false_ne_true, List.countP_append,
      List.countP_append, each_line]
    simp [isBullet_heading, blank]

theorem filter_lines (r : Report) : r.lines.filter (isHeading ·.toList) = r.headings := by
  have title : ["# Project Snapshot", ""].filter (isHeading ·.toList) = [] := rfl
  simp only [lines, headings, List.filter_append, title, filter_sectionLines, List.length_map,
    List.nil_append]

theorem countP_lines (r : Report) : r.lines.countP (isBullet ·.toList) = r.entryCount := by
  have title : ["# Project Snapshot", ""].countP (isBullet ·.toList) = 0 := rfl
  simp only [lines, entryCount, List.countP_append, title, countP_sectionLines, List.length_map,
    Nat.zero_add]

def ended (line : String) : List Char := line.toList ++ ['\n']

theorem toList_markdownLine (e : Entry) : (markdownLine e).toList = ended e.line := by
  simp [markdownLine, ended, Entry.line]

theorem toList_markdownSection (title : String) (entries : List Entry) :
    (markdownSection title entries).toList = (sectionLines title entries).flatMap ended := by
  have rows : (String.join (entries.map markdownLine)).toList =
      (entries.map Entry.line).flatMap ended := by
    rw [String.toList_join, List.flatMap_map, List.flatMap_map]
    exact congrArg (entries.flatMap ·) (funext toList_markdownLine)
  have blank : ended "" = ['\n'] := rfl
  cases entries with
  | nil => rfl
  | cons e es =>
    rw [markdownSection, sectionLines, List.isEmpty_cons, if_neg Bool.false_ne_true,
      if_neg Bool.false_ne_true, String.toList_append, String.toList_append, rows,
      List.flatMap_append, List.flatMap_append]
    simp [ended, heading]

theorem toList_title : "# Project Snapshot\n\n".toList =
    ["# Project Snapshot", ""].flatMap ended := by
  decide +kernel

theorem lines_eq (r : Report) : r.lines =
    ["# Project Snapshot", ""] ++ r.sections.flatMap fun s => sectionLines s.1 s.2 := by
  simp only [lines, sections, List.flatMap_cons, List.flatMap_nil, List.append_nil,
    List.append_assoc]

theorem toList_toMarkdown (r : Report) : r.toMarkdown.toList = r.lines.flatMap ended := by
  have sectioned : (String.join (r.sections.map fun s => markdownSection s.1 s.2)).toList =
      r.sections.flatMap fun s => (sectionLines s.1 s.2).flatMap ended := by
    rw [String.toList_join, List.flatMap_map]
    exact congrArg (r.sections.flatMap ·) (funext fun s => toList_markdownSection s.1 s.2)
  have whole : r.toMarkdown.toList = "# Project Snapshot\n\n".toList ++
      (String.join (r.sections.map fun s => markdownSection s.1 s.2)).toList :=
    String.toList_append
  rw [whole, sectioned, toList_title, ← List.flatMap_assoc, ← List.flatMap_append, lines_eq]

theorem splitOn_flatMap_ended {ls : List String} (h : ∀ l ∈ ls, '\n' ∉ l.toList) :
    (ls.flatMap ended).splitOn '\n' = ls.map String.toList ++ [[]] := by
  have joined : ls.flatMap ended = ['\n'].intercalate (ls.map String.toList ++ [[]]) := by
    clear h
    induction ls with
    | nil => rfl
    | cons l ls ih =>
      rw [List.flatMap_cons, ih, ended]
      cases ls <;> simp [List.intercalate_cons_cons]
  rw [joined]
  refine List.splitOn_intercalate _ (fun piece hp => ?_) (by simp)
  rcases List.mem_append.1 hp with hp | hp
  · obtain ⟨l, hl, rfl⟩ := List.mem_map.1 hp
    exact h l hl
  · rw [List.mem_singleton.1 hp]
    exact List.not_mem_nil

end Report

structure Entry.Unbroken (e : Entry) : Prop where
  name : '\n' ∉ e.name.toList
  file : '\n' ∉ e.file.toList
  description : '\n' ∉ e.description.toList

theorem mem_of_mem_fileName? {path name : String} (h : Path.fileName? path = some name) {c : Char}
    (hc : c ∈ name.toList) : c ∈ path.toList := by
  obtain ⟨last, -⟩ := Option.filter_eq_some_iff.1 h
  have piece := List.mem_of_mem_filter (List.mem_of_getLast? last)
  obtain ⟨chars, hchars, rfl⟩ := List.mem_map.1 piece
  rw [String.toList_ofList] at hc
  exact (Text.mem_of_mem_splitOn hchars c hc).1

theorem Entry.Unbroken.line {e : Entry} (h : e.Unbroken) : '\n' ∉ e.line.toList := by
  have base : '\n' ∉ ((Path.fileName? e.file).getD "").toList := by
    cases hf : Path.fileName? e.file with
    | none => simp
    | some name => exact fun hc => h.file (mem_of_mem_fileName? hf hc)
  simp [Entry.line, h.name, h.description, base]

theorem Report.unbroken_title {r : Report} {s : String × List Entry} (hs : s ∈ r.sections) :
    '\n' ∉ s.1.toList := by
  simp only [sections, List.mem_cons, List.not_mem_nil, or_false] at hs
  have plain : ∀ title ∈ ["Core Modules", "UI Components", "React Hooks", "Utility Functions",
      "Key Types and Interfaces"], '\n' ∉ title.toList := by decide
  rcases hs with rfl | rfl | rfl | rfl | rfl <;> exact plain _ (by simp)

theorem Report.unbroken_sectionLines {title : String} {entries : List Entry}
    (ht : '\n' ∉ title.toList) (he : ∀ e ∈ entries, e.Unbroken) :
    ∀ l ∈ sectionLines title entries, '\n' ∉ l.toList := by
  intro l hl
  unfold sectionLines at hl
  split at hl
  · cases hl
  · simp only [List.mem_append, List.mem_cons, List.not_mem_nil, or_false, List.mem_map] at hl
    rcases hl with ((rfl | rfl) | ⟨e, he', rfl⟩) | rfl
    · simp [toList_heading, ht]
    · decide
    · exact (he e he').line
    · decide

theorem OneLine.unbroken {s : List Char} (h : OneLine s) : '\n' ∉ s := fun hc =>
  absurd (h.spaced '\n' hc (by decide)) (by decide)

theorem Kind.NameIn.unbroken {k : Kind} {text name : List Char} (h : k.NameIn text name) :
    '\n' ∉ name := fun hc => absurd (h.named '\n' hc) (by decide)

theorem unbroken_of_mem_declarations {k : Kind} (hk : k ≠ .importClause) {path content : String}
    (hp : '\n' ∉ path.toList) {d : Declaration} (hd : d ∈ k.declarations content) :
    (d.inFile path).Unbroken := by
  obtain ⟨s, hs, rfl⟩ := List.mem_map.1 hd
  obtain ⟨found, accepted⟩ := List.mem_filter.1 hs
  exact ⟨(Kind.nameIn_of_accepts hk found accepted).unbroken, hp,
    (Kind.oneLine_describe hk _ _).unbroken⟩

namespace Report

section Sources
variable {files : List (String × String)} (named : ∀ f ∈ files, '\n' ∉ f.1.toList)
include named

theorem unbroken_inventory {k : Kind} (hk : k ≠ .importClause) :
    ∀ e ∈ (files.map fun f => FileRecord.ofSource f.1 f.2).flatMap
      (fun r => (r.listed k).map (·.inFile r.path)), e.Unbroken := by
  intro e he
  obtain ⟨r, hr, he⟩ := List.mem_flatMap.1 he
  obtain ⟨f, hf, rfl⟩ := List.mem_map.1 hr
  obtain ⟨d, hd, rfl⟩ := List.mem_map.1 he
  rw [FileRecord.listed_ofSource hk] at hd
  exact unbroken_of_mem_declarations hk (named f hf) hd

theorem unbroken_ofRecords (k : Keywords) :
    ∀ s ∈ (ofRecords k (files.map fun f => FileRecord.ofSource f.1 f.2)).sections,
      ∀ e ∈ s.2, e.Unbroken := by
  intro s hs
  simp only [sections, List.mem_cons, List.not_mem_nil, or_false] at hs
  rcases hs with rfl | rfl | rfl | rfl | rfl
  · intro e he
    obtain ⟨m, hm, rfl⟩ := List.mem_map.1 he
    obtain ⟨e, he, hm⟩ := List.mem_flatMap.1 hm
    rw [List.eq_of_mem_replicate hm]
    exact unbroken_inventory named (k := .classDef) (by decide) e he
  · exact unbroken_inventory named (k := .component) (by decide)
  · exact unbroken_inventory named (k := .hook) (by decide)
  · intro e he
    obtain ⟨e', he', he⟩ := List.mem_flatMap.1 he
    rw [List.eq_of_mem_replicate he]
    exact unbroken_inventory named (k := .function) (by decide) e' he'
  · exact unbroken_inventory named (k := .interface) (by decide)

theorem unbroken_lines (k : Keywords) :
    ∀ l ∈ (ofRecords k (files.map fun f => FileRecord.ofSource f.1 f.2)).lines,
      '\n' ∉ l.toList := by
  intro l hl
  rw [lines_eq] at hl
  rcases List.mem_append.1 hl with hl | hl
  · have plain : ∀ l ∈ ["# Project Snapshot", ""], '\n' ∉ l.toList := by decide
    exact plain l hl
  · obtain ⟨s, hs, hl⟩ := List.mem_flatMap.1 hl
    exact unbroken_sectionLines (unbroken_title hs) (unbroken_ofRecords named k s hs) l hl

end Sources

/-- A rendering has the lines of its sections, one for each entry, whatever the sources say: its
headings are those of the categories that have entries, and its bullets are as many as the
entries. -/
theorem splitOn_toMarkdown (k : Keywords) (files : List (String × String))
    (named : ∀ f ∈ files, '\n' ∉ f.1.toList) :
    let r := ofRecords k (files.map fun f => FileRecord.ofSource f.1 f.2)
    let pieces := r.toMarkdown.toList.splitOn '\n'
    pieces = r.lines.map String.toList ++ [[]] ∧
      pieces.filter isHeading = r.headings.map String.toList ∧
      pieces.countP isBullet = r.entryCount := by
  intro r pieces
  have split : pieces = r.lines.map String.toList ++ [[]] := by
    change r.toMarkdown.toList.splitOn '\n' = _
    rw [toList_toMarkdown]
    exact splitOn_flatMap_ended (unbroken_lines named k)
  refine ⟨split, ?_, ?_⟩
  · rw [split, List.filter_append, List.filter_map, ← r.filter_lines]
    exact List.append_nil _
  · rw [split, List.countP_append, List.countP_map, ← r.countP_lines]
    rfl

theorem splitOn_forged :
    let files := [("/store.ts", "/** a\n## b\n- **c */ class Store \x7b\x7d")]
    (∀ f ∈ files, '\n' ∉ f.1.toList) ∧
      (ofRecords .standard
          (files.map fun f => FileRecord.ofSource f.1 f.2)).toMarkdown.toList.splitOn '\n' =
        ["# Project Snapshot", "", "## Core Modules", "",
          "- **Store** (store.ts): a ## b - **c", "", ""].map String.toList := by
  intro files
  have named : ∀ f ∈ files, '\n' ∉ f.1.toList := by decide
  exact ⟨named, (splitOn_toMarkdown .standard files named).1.trans (by decide +kernel)⟩

end Report

end Snapshot

import Mathlib.Data.List.Perm.Basic
import Snapshot.Config.File
import Snapshot.Proofs.Output.Frame
import Snapshot.Proofs.Toml.Insertion

/-!
# Overrides that were written to a file

Whichever settings a file gives, in whatever order and spelling, they are read as they were written,
and the other settings stay. A line with any other key, or a second one with a key that is there
already, makes the file invalid.
-/

namespace Snapshot

namespace Toml.Value

theorem strings?_ofStrings (ss : List String) : (ofStrings ss).strings? = some ss := by
  rw [ofStrings, strings?]
  induction ss with
  | nil => rfl
  | cons s ss ih => simp [string?, ih]

theorem errorPolicy?_name (policy : ErrorPolicy) :
    (string policy.name).errorPolicy? = some policy := by
  cases policy <;> rfl

end Toml.Value

namespace Overrides

def keys : List String :=
  ["excluded_dirs", "source_suffixes", "excluded_suffixes", "core_module_keywords",
    "utility_keywords", "ignore_patterns", "respect_gitignore", "on_unreadable"]

def fields (o : Overrides) : List (String × Option Toml.Value) :=
  [("excluded_dirs", o.excludedDirs.map .ofStrings),
    ("source_suffixes", o.sourceSuffixes.map .ofStrings),
    ("excluded_suffixes", o.excludedSuffixes.map .ofStrings),
    ("core_module_keywords", o.coreModuleKeywords.map .ofStrings),
    ("utility_keywords", o.utilityKeywords.map .ofStrings),
    ("ignore_patterns", o.ignorePatterns.map .ofStrings),
    ("respect_gitignore", o.respectGitignore.map .boolean),
    ("on_unreadable", o.errorPolicy.map (.string ·.name))]

def settings (o : Overrides) : Toml.Entries := o.fields.filterMap fun f => f.2.map (f.1, ·)

theorem map_fst_fields (o : Overrides) : o.fields.map Prod.fst = keys := rfl

theorem mem_settings {o : Overrides} {key : String} {v : Toml.Value} :
    (key, v) ∈ o.settings ↔ (key, some v) ∈ o.fields := by
  simp [settings]

theorem keys_settings_sublist (o : Overrides) : o.settings.keys.Sublist keys := by
  rw [← map_fst_fields o, settings, Toml.Entries.keys]
  induction o.fields with
  | nil => exact .slnil
  | cons f fields ih =>
    obtain ⟨key, _ | v⟩ := f
    · exact ih.cons _
    · exact ih.cons_cons _

theorem nodup_keys_settings (o : Overrides) : o.settings.keys.Nodup :=
  (keys_settings_sublist o).nodup (by decide)

/-- The settings of `o` under some keys, and the settings of `base` under the others. -/
def pick (ks : List String) (o base : Overrides) : Overrides where
  excludedDirs := if "excluded_dirs" ∈ ks then o.excludedDirs else base.excludedDirs
  sourceSuffixes := if "source_suffixes" ∈ ks then o.sourceSuffixes else base.sourceSuffixes
  excludedSuffixes := if "excluded_suffixes" ∈ ks then o.excludedSuffixes else base.excludedSuffixes
  coreModuleKeywords :=
    if "core_module_keywords" ∈ ks then o.coreModuleKeywords else base.coreModuleKeywords
  utilityKeywords := if "utility_keywords" ∈ ks then o.utilityKeywords else base.utilityKeywords
  ignorePatterns := if "ignore_patterns" ∈ ks then o.ignorePatterns else base.ignorePatterns
  respectGitignore := if "respect_gitignore" ∈ ks then o.respectGitignore else base.respectGitignore
  errorPolicy := if "on_unreadable" ∈ ks then o.errorPolicy else base.errorPolicy

theorem pick_cons (k : String) (ks : List String) (o base : Overrides) :
    pick (k :: ks) o base = pick ks o (pick [k] o base) := by
  have field {α : Type} (key : String) (x y : α) :
      (if key ∈ k :: ks then x else y) = if key ∈ ks then x else if key ∈ [k] then x else y := by
    by_cases later : key ∈ ks <;> simp [later]
  simp only [pick, field]

theorem add_of_mem {o : Overrides} {key : String} {v : Toml.Value} (h : (key, v) ∈ o.settings)
    (base : Overrides) : base.add (key, v) = some (pick [key] o base) := by
  rw [mem_settings, fields] at h
  simp only [List.mem_cons, Prod.mk.injEq, List.not_mem_nil, or_false] at h
  rcases h with ⟨rfl, given⟩ | ⟨rfl, given⟩ | ⟨rfl, given⟩ | ⟨rfl, given⟩ | ⟨rfl, given⟩ |
    ⟨rfl, given⟩ | ⟨rfl, given⟩ | ⟨rfl, given⟩
  all_goals
    obtain ⟨x, is_given, rfl⟩ := Option.map_eq_some_iff.1 given.symm
    simp [add, pick, is_given, Toml.Value.strings?_ofStrings, Toml.Value.boolean?,
      Toml.Value.errorPolicy?_name]

theorem foldlM_add {o : Overrides} {es : Toml.Entries} (h : ∀ e ∈ es, e ∈ o.settings)
    (base : Overrides) : es.foldlM add base = some (pick es.keys o base) := by
  induction es generalizing base with
  | nil => rfl
  | cons e es ih =>
    obtain ⟨first, rest⟩ := List.forall_mem_cons.1 h
    rw [List.foldlM_cons, add_of_mem first]
    exact (ih rest _).trans (congrArg some (pick_cons e.1 _ o base).symm)

theorem pick_all {o : Overrides} {ks : List String} (all : ∀ e ∈ o.settings, e.1 ∈ ks) :
    pick ks o {} = o := by
  have field {α : Type} (key : String) (x : Option α) (value : α → Toml.Value)
      (there : (key, x.map value) ∈ o.fields) : (if key ∈ ks then x else none) = x := by
    cases x with
    | none => rw [ite_self]
    | some a => exact if_pos (all (key, value a) (mem_settings.2 there))
  have strings (key : String) (x : Option (List String)) := field key x .ofStrings
  rw [pick, strings "excluded_dirs" _ (by simp [fields]),
    strings "source_suffixes" _ (by simp [fields]),
    strings "excluded_suffixes" _ (by simp [fields]),
    strings "core_module_keywords" _ (by simp [fields]),
    strings "utility_keywords" _ (by simp [fields]),
    strings "ignore_patterns" _ (by simp [fields]),
    field "respect_gitignore" o.respectGitignore .boolean (by simp [fields]),
    field "on_unreadable" o.errorPolicy (.string ·.name) (by simp [fields])]

theorem ofEntries?_of_perm {o : Overrides} {es : Toml.Entries} (h : es.Perm o.settings) :
    ofEntries? es = some o := by
  rw [ofEntries?, foldlM_add fun e he => h.mem_iff.1 he, pick_all]
  exact fun e he => List.mem_map_of_mem (h.mem_iff.2 he)

theorem add_of_not_mem {key : String} (h : key ∉ keys) (base : Overrides) (v : Toml.Value) :
    base.add (key, v) = none := by
  unfold add
  split
  case h_9 => rfl
  all_goals
    rename_i same
    cases same
    exact absurd (by decide) h

theorem foldlM_add_eq_none {key : String} (unknown : key ∉ keys) {es : Toml.Entries}
    (there : key ∈ es.keys) (base : Overrides) : es.foldlM add base = none := by
  induction es generalizing base with
  | nil => cases there
  | cons e es ih =>
    obtain ⟨k, v⟩ := e
    rw [List.foldlM_cons]
    rcases List.mem_cons.1 there with rfl | there
    · rw [add_of_not_mem unknown]
      rfl
    · cases base.add (k, v) with
      | none => rfl
      | some base => exact ih there base

theorem exists_written {o : Overrides} {key : String} {v : Toml.Value} (h : (key, v) ∈ o.settings) :
    ∃ text, Toml.Written v text := by
  have strings (ss : List String) : ∃ text, Toml.Written (.ofStrings ss) text := by
    obtain ⟨u, items⟩ := Toml.exists_items ss
    exact ⟨_, .strings items⟩
  rw [mem_settings, fields] at h
  simp only [List.mem_cons, Prod.mk.injEq, List.not_mem_nil, or_false] at h
  rcases h with ⟨-, given⟩ | ⟨-, given⟩ | ⟨-, given⟩ | ⟨-, given⟩ | ⟨-, given⟩ | ⟨-, given⟩ |
    ⟨-, given⟩ | ⟨-, given⟩
  case inr.inr.inr.inr.inr.inr.inl =>
    obtain ⟨b, -, rfl⟩ := Option.map_eq_some_iff.1 given.symm
    exact ⟨_, .boolean b⟩
  case inr.inr.inr.inr.inr.inr.inr =>
    obtain ⟨policy, -, rfl⟩ := Option.map_eq_some_iff.1 given.symm
    obtain ⟨t, text⟩ := Toml.exists_spelledText policy.name.toList
    exact ⟨_, .string text⟩
  all_goals
    obtain ⟨ss, -, rfl⟩ := Option.map_eq_some_iff.1 given.symm
    exact strings ss

theorem isBare_of_mem : ∀ key ∈ keys, Toml.isBare key = true := by decide

theorem no_word_of_mem : ∀ key ∈ keys, key ≠ "true" ∧ key ≠ "false" := by decide

theorem mem_keys_of_mem_settings {o : Overrides} {e : String × Toml.Value} (h : e ∈ o.settings) :
    e.1 ∈ keys := (keys_settings_sublist o).mem (List.mem_map_of_mem h)

theorem exists_lines {o : Overrides} {entries : Toml.Entries} (h : ∀ e ∈ entries, e ∈ o.settings) :
    ∃ lines : List Toml.Line, lines.map Toml.Line.entry = entries := by
  induction entries with
  | nil => exact ⟨[], rfl⟩
  | cons e entries ih =>
    obtain ⟨first, rest⟩ := List.forall_mem_cons.1 h
    obtain ⟨text, written⟩ := exists_written first
    obtain ⟨lines, same⟩ := ih rest
    have bare := isBare_of_mem _ (mem_keys_of_mem_settings first)
    exact ⟨⟨e.1, e.2, text, bare, written⟩ :: lines, congrArg (e :: ·) same⟩

end Overrides

namespace Disk
open Toml (document pairLine quoted)

theorem loadOverrides_of_readText {d : Disk} {path : String} {text : List Char}
    (file : d.readText path = .ok (String.ofList text)) (c : Config) :
    d.loadOverrides c path = ((Toml.read? text).bind Overrides.ofEntries?).elim
      (.error (.invalid path)) fun o => .ok (o.apply c) := by
  have read : Overrides.ofText? (String.ofList text) =
      (Toml.read? text).bind Overrides.ofEntries? := by
    rw [Overrides.ofText?, String.toList_ofList]
  unfold loadOverrides
  simp only [file, read]
  cases (Toml.read? text).bind Overrides.ofEntries? <;> rfl

/-- The settings `o` as the lines of a file, in any order. There is a way to write them, and however
they are written, loading the file puts them in the place of those of the configuration. One more
line makes the file invalid: one with a key that is not known, whatever stands behind the key, and
one with a key that is there already, before it or behind it. -/
theorem loadOverrides_document (o : Overrides) {entries : Toml.Entries}
    (order : entries.Perm o.settings) :
    (∃ lines : List Toml.Line, lines.map Toml.Line.entry = entries) ∧
    ∀ lines : List Toml.Line, lines.map Toml.Line.entry = entries →
      ∀ (d : Disk) (path : String) (c : Config),
        (d.readText path = .ok (String.ofList (document lines)) →
          d.loadOverrides c path = .ok { c with
            excludedDirs := o.excludedDirs.getD c.excludedDirs
            sourceSuffixes := o.sourceSuffixes.getD c.sourceSuffixes
            excludedSuffixes := o.excludedSuffixes.getD c.excludedSuffixes
            keywords := ⟨o.coreModuleKeywords.getD c.keywords.coreModule,
              o.utilityKeywords.getD c.keywords.utility⟩
            ignorePatterns := o.ignorePatterns.getD c.ignorePatterns
            respectGitignore := o.respectGitignore.getD c.respectGitignore
            errorPolicy := o.errorPolicy.getD c.errorPolicy }) ∧
        ∀ before after key value, lines = before ++ after → Toml.isBare key = true →
          d.readText path = .ok (String.ofList
            (document before ++ (pairLine key value ++ document after))) →
          (key ∉ Overrides.keys → d.loadOverrides c path = .error (.invalid path)) ∧
          (key ∈ lines.map Toml.Line.key → Toml.OneLine value →
            d.loadOverrides c path = .error (.invalid path)) := by
  refine ⟨Overrides.exists_lines fun e he => order.mem_iff.1 he, fun lines same d path c => ?_⟩
  subst same
  have names : lines.map Toml.Line.key = Toml.Entries.keys (lines.map Toml.Line.entry) := by
    simp [Toml.Entries.keys, Toml.Line.entry]
  refine ⟨fun file => ?_, fun before after key value cut bare file => ⟨fun unknown => ?_,
    fun again line => ?_⟩⟩
  · have distinct : (lines.map Toml.Line.key).Nodup := by
      rw [names]
      exact (order.map Prod.fst).nodup_iff.2 (Overrides.nodup_keys_settings o)
    rw [loadOverrides_of_readText file, Toml.read?_document distinct, Option.bind_some,
      Overrides.ofEntries?_of_perm order]
    rfl
  · have invalid : (Toml.read? (document before ++ (pairLine key value ++ document after))).bind
        Overrides.ofEntries? = none := by
      refine Option.bind_eq_none_iff.2 fun es read => ?_
      exact Overrides.foldlM_add_eq_none unknown (Toml.mem_keys_of_read? bare read).2 {}
    rw [loadOverrides_of_readText file, invalid, Option.elim_none]
  · have invalid :
        Toml.read? (document before ++ (pairLine key value ++ document after)) = none := by
      subst cut
      rw [List.map_append, List.mem_append] at again
      rcases again with earlier | later
      · refine Option.eq_none_iff_forall_ne_some.2 fun es read => ?_
        exact (Toml.mem_keys_of_read? bare read).1 earlier
      · refine Toml.read?_eq_none_of_again bare line later fun l hl => ?_
        have there : l.entry ∈ o.settings :=
          order.mem_iff.1 (List.mem_map_of_mem (List.mem_append_right _ hl))
        exact Overrides.no_word_of_mem _ (Overrides.mem_keys_of_mem_settings there)
    rw [loadOverrides_of_readText file, invalid, Option.bind_none, Option.elim_none]

theorem readText_of_find? {d : Disk} {name text : String} (top : d.current = [])
    (steps : Path.steps name = [name]) (plain : name ∉ ["", ".", ".."])
    (there : d.root.find? name = some (.file text.toUTF8))
    (allowed : d.limits.reading [name] = none) : d.readText name = .ok text := by
  simp only [List.mem_cons, List.not_mem_nil, or_false, not_or] at plain
  have start : d.root.node? [] = some (.dir d.root) := by rw [Listing.node?]
  have found : d.root.node? [name] = some (.file text.toUTF8) := by simp [Listing.node?, there]
  refine readText_of_file (place?_eq_some.2 ⟨.found [name] (.file text.toUTF8), ?_, rfl⟩) found
    allowed
  rw [lookup, steps, if_neg (by simp [plain]), top, ite_self]
  simp only [resolve, start, there, found, plain, if_false, List.nil_append]

def sampleOverrides : Overrides where
  excludedDirs := some ["\"é"]
  errorPolicy := some .skip

def samplePolicy : Toml.Line where
  key := "on_unreadable"
  value := .string "skip"
  text := _
  bare := by decide
  written := .string (Toml.spelledText_self (by decide))

def sampleDirs : Toml.Line where
  key := "excluded_dirs"
  value := .ofStrings ["\"é"]
  text := _
  bare := by decide
  written := .strings (.last (.cons (.letter (e := '"') rfl) (Toml.spelledText_self (by decide))))

example : document [samplePolicy, sampleDirs] =
    "on_unreadable = \"skip\"\nexcluded_dirs = [\"\\\"é\"]\n".toList := by decide

def sampleWith (key : String) (value : List Char) : List Char :=
  document [samplePolicy] ++ (pairLine key value ++ document [sampleDirs])

def sampleDisk : Disk where
  root := .file "a.toml" (String.ofList (document [samplePolicy, sampleDirs])).toUTF8
    (.file "b.toml" (String.ofList (sampleWith "root" (quoted ['l', 'i', 'b']))).toUTF8
    (.file "c.toml" (String.ofList (sampleWith "on_unreadable" (quoted ['a']))).toUTF8 .nil))
  wellFormed := ⟨by decide, by decide, by decide, by decide, by decide, by decide, trivial⟩

theorem loadOverrides_sample :
    ([samplePolicy, sampleDirs].map Toml.Line.entry).Perm sampleOverrides.settings ∧
    sampleDisk.loadOverrides {} "a.toml" =
      .ok { excludedDirs := ["\"é"], errorPolicy := .skip } ∧
    sampleDisk.loadOverrides {} "b.toml" = .error (.invalid "b.toml") ∧
    sampleDisk.loadOverrides {} "c.toml" = .error (.invalid "c.toml") := by
  have order : ([samplePolicy, sampleDirs].map Toml.Line.entry).Perm sampleOverrides.settings :=
    .swap ..
  have whole : sampleDisk.readText "a.toml" =
      .ok (String.ofList (document [samplePolicy, sampleDirs])) :=
    readText_of_find? rfl (by decide) (by decide) rfl rfl
  have unknown : sampleDisk.readText "b.toml" =
      .ok (String.ofList (sampleWith "root" (quoted ['l', 'i', 'b']))) :=
    readText_of_find? rfl (by decide) (by decide) rfl rfl
  have again : sampleDisk.readText "c.toml" =
      .ok (String.ofList (sampleWith "on_unreadable" (quoted ['a']))) :=
    readText_of_find? rfl (by decide) (by decide) rfl rfl
  have line : Toml.OneLine (quoted ['a']) :=
    (Toml.Written.string (s := "a") (Toml.spelledText_self (by decide))).oneLine
  obtain ⟨-, loads⟩ := loadOverrides_document sampleOverrides order
  obtain ⟨loaded, -⟩ := loads _ rfl sampleDisk "a.toml" {}
  obtain ⟨-, unknown_fails⟩ := loads _ rfl sampleDisk "b.toml" {}
  obtain ⟨-, again_fails⟩ := loads _ rfl sampleDisk "c.toml" {}
  exact ⟨order, loaded whole, (unknown_fails [_] [_] _ _ rfl (by decide) unknown).1 (by decide),
    (again_fails [_] [_] _ _ rfl (by decide) again).2 (by decide) line⟩

end Disk

end Snapshot

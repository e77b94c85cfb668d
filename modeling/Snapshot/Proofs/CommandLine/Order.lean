import Mathlib.Data.List.Perm.Basic
import Snapshot.Proofs.CommandLine.Parts

/-!
# The order of a command line

A command line whose parts each ask for something else, `ignore` apart, is read as all that its
parts ask for. So its parts may come in any order, if the values of `ignore` stay in theirs. The
configuration is that of the file, or the standard one, with what the parts add.
-/

namespace Snapshot.CommandLine

structure Part where
  request : Request
  args : List String
  valid : request.Valid
  spelled : request.Spelled args

namespace Part

def value? (s : Setting) (p : Part) : Option String :=
  match p.request with
  | .setting s' value => if s' = s then some value else none
  | .switch _ => none

def values (s : Setting) (parts : List Part) : List String := parts.filterMap (value? s)

def has (w : Switch) (parts : List Part) : Bool := parts.any (·.request == .switch w)

def arguments (parts : List Part) : List String := parts.flatMap args

def keys (parts : List Part) : List Key := parts.map (·.request.key)

/-- Every key but `ignore` is there once at most. -/
def Single (parts : List Part) : Prop := ∀ k, k ≠ .setting .ignore → (keys parts).count k ≤ 1

end Part

open Snapshot.CommandLine.Part

def ofParts (parts : List Part) : CommandLine where
  path := (values .path parts).head?
  format := (values .format parts).head?.bind Format.ofName?
  outputDir := (values .outputDir parts).head?
  configFile := (values .configFile parts).head?
  ignore := values .ignore parts
  gitignore := has .gitignore parts
  skipUnreadable := has .skipUnreadable parts
  verbose := has .verbose parts

theorem values_concat (s : Setting) (parts : List Part) (p : Part) :
    values s (parts ++ [p]) = values s parts ++ (p.value? s).toList := by
  rw [values, List.filterMap_append]
  cases h : p.value? s <;> simp [values, h]

theorem has_concat (w : Switch) (parts : List Part) (p : Part) :
    has w (parts ++ [p]) = (has w parts || p.request == .switch w) := by
  simp [has]

theorem length_values (s : Setting) (parts : List Part) :
    (values s parts).length = (keys parts).count (.setting s) := by
  induction parts with
  | nil => rfl
  | cons p parts ih =>
    rw [keys, List.map_cons, List.count_cons, ← keys, ← ih, values, List.filterMap_cons]
    cases h : p.request with
    | setting s' value => by_cases same : s' = s <;> simp [value?, h, same, Request.key, values]
    | switch w => simp [value?, h, Request.key, values]

theorem values_eq_nil {s : Setting} {parts : List Part} (fresh : .setting s ∉ keys parts) :
    values s parts = [] := by
  rw [← List.length_eq_zero_iff, length_values, List.count_eq_zero]
  exact fresh

theorem has_eq_false {w : Switch} {parts : List Part} (fresh : .switch w ∉ keys parts) :
    has w parts = false := by
  refine List.any_eq_false.2 fun p hp asked => fresh ?_
  exact List.mem_map.2 ⟨p, hp, congrArg Request.key (beq_iff_eq.1 asked)⟩

theorem nonEmpty?_of_isValue {text : String} (h : Request.IsValue text) :
    nonEmpty? text = some text := by
  obtain ⟨c, s, chars, -⟩ := h
  have filled : text ≠ "" := by
    rintro rfl
    cases chars
  simp [nonEmpty?, filled]

theorem of_spelled_switch {w : Switch} {args : List String}
    (h : Request.Spelled (.switch w) args) : w ≠ .help ∧ w ≠ .version := by
  have no_name : ∀ p ∈ Request.names, p.2 ≠ .switch .help ∧ p.2 ≠ .switch .version := by decide
  have no_letter : ∀ p ∈ Request.letters, p.2 ≠ .switch .help ∧ p.2 ≠ .switch .version := by decide
  cases h with
  | longSwitch known =>
    obtain ⟨help, version⟩ := no_name _ known
    exact ⟨mt (congrArg Key.switch) help, mt (congrArg Key.switch) version⟩
  | shortSwitch known =>
    obtain ⟨help, version⟩ := no_letter _ known
    exact ⟨mt (congrArg Key.switch) help, mt (congrArg Key.switch) version⟩

theorem grant_ofParts {parts : List Part} (p : Part)
    (fresh : p.request.key ≠ .setting .ignore → p.request.key ∉ keys parts) :
    (ofParts parts).grant p.request = .ok (ofParts (parts ++ [p])) := by
  obtain ⟨request, args, valid, spelled⟩ := p
  cases request with
  | setting s value =>
    obtain ⟨isValue, named⟩ := valid
    have filled := nonEmpty?_of_isValue isValue
    cases s with
    | path =>
      have first := values_eq_nil (fresh (by simp [Request.key]))
      simp [grant, set, fill, ofParts, values_concat, has_concat, value?, first, filled, Except.map]
    | format =>
      have first := values_eq_nil (fresh (by simp [Request.key]))
      obtain ⟨format, known⟩ : ∃ format, Format.ofName? value = some format := by
        have written : value = "json" ∨ value = "yaml" := by simpa using named rfl
        rcases written with rfl | rfl <;> exact ⟨_, rfl⟩
      simp [grant, set, fill, ofParts, values_concat, has_concat, value?, first, known, Except.map]
    | outputDir =>
      have first := values_eq_nil (fresh (by simp [Request.key]))
      simp [grant, set, fill, ofParts, values_concat, has_concat, value?, first, filled, Except.map]
    | configFile =>
      have first := values_eq_nil (fresh (by simp [Request.key]))
      simp [grant, set, fill, ofParts, values_concat, has_concat, value?, first, filled, Except.map]
    | ignore => simp [grant, set, ofParts, values_concat, has_concat, value?]
  | switch w =>
    have off := has_eq_false (fresh (by simp [Request.key]))
    cases w with
    | gitignore => simp [grant, turnOn, ofParts, values_concat, has_concat, value?, off]
    | skipUnreadable => simp [grant, turnOn, ofParts, values_concat, has_concat, value?, off]
    | verbose => simp [grant, turnOn, ofParts, values_concat, has_concat, value?, off]
    | help => exact absurd rfl (of_spelled_switch spelled).1
    | version => exact absurd rfl (of_spelled_switch spelled).2

theorem exists_addAll_arguments {parts : List Part} (single : Single parts) (rest : List String) :
    ∃ r : Reading, r.Settles (ofParts parts) ∧
      Reading.addAll {} (arguments parts ++ rest) = r.addAll rest := by
  induction parts using List.reverseRecOn generalizing rest with
  | nil => exact ⟨{}, rfl, rfl⟩
  | append_singleton parts p ih =>
    have counts : ∀ k, (keys (parts ++ [p])).count k =
        (keys parts).count k + if p.request.key = k then 1 else 0 := by
      intro k
      simp [keys, List.count_append, List.count_singleton]
    have before : Single parts := fun k hk => by
      have := single k hk
      rw [counts] at this
      omega
    have fresh : p.request.key ≠ .setting .ignore → p.request.key ∉ keys parts := by
      intro hk
      have := single _ hk
      rw [counts, if_pos rfl] at this
      exact List.count_eq_zero.1 (by omega)
    obtain ⟨r, settles, reads⟩ := ih before (p.args ++ rest)
    obtain ⟨r', settles', reads'⟩ := Reading.exists_addAll settles p.valid p.spelled
      (grant_ofParts p fresh) rest
    refine ⟨r', settles', ?_⟩
    rw [← reads', ← reads]
    simp [arguments]

/-- A command line with single parts is read as what its parts ask for. -/
theorem ofArguments_arguments {parts : List Part} (single : Single parts) :
    ofArguments (arguments parts) = .ok (ofParts parts) := by
  obtain ⟨r, settles, reads⟩ := exists_addAll_arguments single []
  rw [List.append_nil] at reads
  have settled : r.settle = .ok { line := ofParts parts } := settles
  rw [ofArguments, reads]
  simp [Reading.addAll, settled, bind, Except.bind, pure, Except.pure]

theorem Part.Single.perm {parts parts' : List Part} (single : Single parts)
    (h : parts'.Perm parts) : Single parts' := by
  intro k hk
  rw [keys, (h.map _).count_eq]
  exact single k hk

theorem values_perm {s : Setting} (other : s ≠ .ignore) {parts parts' : List Part}
    (single : Single parts) (h : parts'.Perm parts) : values s parts' = values s parts := by
  have some_order : (values s parts').Perm (values s parts) := h.filterMap _
  have few : (values s parts).length ≤ 1 := by
    rw [length_values]
    exact single _ fun same => other (Key.setting.inj same)
  match found : values s parts with
  | [] => exact (found ▸ some_order).eq_nil
  | [value] => exact (found ▸ some_order).eq_singleton
  | _ :: _ :: _ => simp [found] at few

theorem ofParts_perm {parts parts' : List Part} (single : Single parts) (h : parts'.Perm parts)
    (ignore : values .ignore parts' = values .ignore parts) : ofParts parts' = ofParts parts := by
  have switches : ∀ w, has w parts' = has w parts := fun w => h.any_eq
  simp only [ofParts, switches, ignore, values_perm (s := .path) (by decide) single h,
    values_perm (s := .format) (by decide) single h,
    values_perm (s := .outputDir) (by decide) single h,
    values_perm (s := .configFile) (by decide) single h]

/-- The parts of a command line may change places, but for those of `ignore` among themselves. The
configuration is the standard one, or that of the file, with what the parts add: the patterns come
behind those of the file, and the switches are only turned on. -/
theorem ofArguments_perm {parts : List Part} (single : Single parts) :
    (∀ parts' : List Part, parts'.Perm parts → values .ignore parts' = values .ignore parts →
      ofArguments (arguments parts') = .ok (ofParts parts)) ∧
    ∀ (d : Disk) (root : String) (c : Config), d.config (ofParts parts) root = .ok c →
      ∃ file : Config,
        (values .configFile parts = [] → file = { root }) ∧
        (∀ path, values .configFile parts = [path] → d.loadOverrides { root } path = .ok file) ∧
        c = { file with
          ignorePatterns := file.ignorePatterns ++ values .ignore parts
          respectGitignore := file.respectGitignore || has .gitignore parts
          errorPolicy := if has .skipUnreadable parts then .skip else file.errorPolicy } := by
  refine ⟨fun parts' h ignore => ?_, fun d root c built => ?_⟩
  · rw [ofArguments_arguments (single.perm h), ofParts_perm single h ignore]
  · have few : (values .configFile parts).length ≤ 1 := by
      rw [length_values]
      exact single _ (by decide)
    match found : values .configFile parts with
    | [] =>
      refine ⟨{ root }, fun _ => rfl, by simp, ?_⟩
      simp only [Disk.config, ofParts, found, List.head?_nil] at built
      exact (Except.ok.inj built).symm
    | [path] =>
      simp only [Disk.config, ofParts, found, List.head?_cons] at built
      cases loaded : d.loadOverrides { root } path with
      | error e => simp [loaded, Except.map] at built
      | ok file =>
        refine ⟨file, by simp, by simpa using loaded, ?_⟩
        rw [loaded] at built
        exact (Except.ok.inj built).symm
    | _ :: _ :: _ => simp [found] at few

def sampleStart : List Part :=
  [⟨.setting .path "/repo", ["/repo"], ⟨⟨'/', _, rfl, by decide, by decide⟩, by decide⟩, .path _⟩,
    ⟨.setting .format "yaml", ["-fyaml"], ⟨⟨'y', _, rfl, by decide, by decide⟩, by decide⟩,
      .shortJoined (show ('f', .setting .format) ∈ Request.letters by decide) "yaml"⟩]

def sampleEnd : List Part :=
  [⟨.setting .ignore "a*", ["--ignore", "a*"], ⟨⟨'a', _, rfl, by decide, by decide⟩, by decide⟩,
      .long (show ("ignore", .setting .ignore) ∈ Request.names by decide) "a*"⟩,
    ⟨.switch .verbose, ["-v"], trivial,
      .shortSwitch (show ('v', .switch .verbose) ∈ Request.letters by decide)⟩,
    ⟨.setting .ignore "b*", ["--ignore=b*"], ⟨⟨'b', _, rfl, by decide, by decide⟩, by decide⟩,
      .longJoined (show ("ignore", .setting .ignore) ∈ Request.names by decide) "b*"⟩]

theorem single_sample : Single (sampleStart ++ sampleEnd) := by
  intro k hk
  have listed : keys (sampleStart ++ sampleEnd) = [.setting .path, .setting .format,
    .setting .ignore, .switch .verbose, .setting .ignore] := rfl
  rw [listed]
  rcases k with s | w
  · cases s with
    | ignore => exact absurd rfl hk
    | _ => decide
  · cases w <;> decide

theorem ofArguments_sample :
    ofArguments ["/repo", "-fyaml", "--ignore", "a*", "-v", "--ignore=b*"] =
      .ok { path := "/repo", format := some .yaml, ignore := ["a*", "b*"], verbose := true } ∧
    ofArguments ["--ignore", "a*", "-v", "--ignore=b*", "/repo", "-fyaml"] =
      .ok { path := "/repo", format := some .yaml, ignore := ["a*", "b*"], verbose := true } := by
  obtain ⟨any_order, -⟩ := ofArguments_perm single_sample
  exact ⟨any_order _ (.refl _) rfl, any_order (sampleEnd ++ sampleStart) List.perm_append_comm rfl⟩

end Snapshot.CommandLine

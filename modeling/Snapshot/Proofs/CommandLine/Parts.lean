import Snapshot.CommandLine.Reader
import Snapshot.Proofs.Text.Reading

/-!
# The parts of a command line

A part of a command line asks for one thing, in one or two arguments: a path, a setting with its
value, or a switch. Wherever a part comes, reading it does what it asks for, however it is spelled.
-/

namespace Snapshot

inductive Request
  | setting (s : Setting) (value : String)
  | switch (w : Switch)
  deriving DecidableEq, Repr

namespace Request

def key : Request → Key
  | setting s _ => .setting s
  | switch w => .switch w

/-- A text that cannot be taken for an option or for a part of one. -/
def IsValue (text : String) : Prop := ∃ c s, text.toList = c :: s ∧ c ≠ '-' ∧ c ≠ '='

def Valid : Request → Prop
  | setting s value => IsValue value ∧ (s = .format → value ∈ ["json", "yaml"])
  | switch _ => True

def names : List (String × Key) :=
  [("format", .setting .format), ("output-dir", .setting .outputDir),
    ("config", .setting .configFile), ("ignore", .setting .ignore),
    ("gitignore", .switch .gitignore), ("skip-unreadable", .switch .skipUnreadable),
    ("verbose", .switch .verbose)]

def letters : List (Char × Key) :=
  [('f', .setting .format), ('o', .setting .outputDir), ('v', .switch .verbose)]

inductive Spelled : Request → List String → Prop
  | path (value : String) : Spelled (setting .path value) [value]
  | long {name : String} {s : Setting} (h : (name, .setting s) ∈ names) (value : String) :
    Spelled (setting s value) ["--" ++ name, value]
  | longJoined {name : String} {s : Setting} (h : (name, .setting s) ∈ names) (value : String) :
    Spelled (setting s value) ["--" ++ name ++ "=" ++ value]
  | short {letter : Char} {s : Setting} (h : (letter, .setting s) ∈ letters) (value : String) :
    Spelled (setting s value) ["-" ++ letter.toString, value]
  | shortJoined {letter : Char} {s : Setting} (h : (letter, .setting s) ∈ letters)
      (value : String) : Spelled (setting s value) ["-" ++ letter.toString ++ value]
  | shortEquals {letter : Char} {s : Setting} (h : (letter, .setting s) ∈ letters)
      (value : String) : Spelled (setting s value) ["-" ++ letter.toString ++ "=" ++ value]
  | longSwitch {name : String} {w : Switch} (h : (name, .switch w) ∈ names) :
    Spelled (switch w) ["--" ++ name]
  | shortSwitch {letter : Char} {w : Switch} (h : (letter, .switch w) ∈ letters) :
    Spelled (switch w) ["-" ++ letter.toString]

theorem of_mem_names {name : String} {key : Key} (h : (name, key) ∈ names) :
    Key.ofName? name = some key ∧ name ≠ "" ∧ '=' ∉ name.toList := by
  have all : ∀ p ∈ names, Key.ofName? p.1 = some p.2 ∧ p.1 ≠ "" ∧ '=' ∉ p.1.toList := by decide
  exact all _ h

theorem of_mem_letters {letter : Char} {key : Key} (h : (letter, key) ∈ letters) :
    Key.ofLetter? letter = some key ∧ letter ≠ '-' := by
  have all : ∀ p ∈ letters, Key.ofLetter? p.1 = some p.2 ∧ p.1 ≠ '-' := by decide
  exact all _ h

end Request

namespace Argument

open Request

theorem ofText_value {text : String} (h : IsValue text) : ofText text = .plain text := by
  obtain ⟨c, s, chars, dash, -⟩ := h
  unfold ofText
  split <;> grind

theorem ofText_dashes {text : String} {rest : List Char} (h : text.toList = '-' :: '-' :: rest)
    (ne : rest ≠ []) :
    ofText text = .long (String.ofList (rest.takeWhile (· != '='))) (value? rest) := by
  unfold ofText
  split <;> grind

theorem ofText_long {name : String} (ne : name ≠ "") (no_equals : '=' ∉ name.toList) :
    ofText ("--" ++ name) = .long name none := by
  have chars : ("--" ++ name).toList = '-' :: '-' :: name.toList := by simp
  have whole : ∀ c ∈ name.toList, (c != '=') = true :=
    fun c hc => bne_iff_ne.2 fun same => no_equals (same ▸ hc)
  have filled : name.toList ≠ [] := fun empty => ne (String.toList_eq_nil_iff.1 empty)
  rw [ofText_dashes chars filled, List.takeWhile_eq_self_iff.2 whole, String.ofList_toList, value?,
    List.dropWhile_eq_nil_iff.2 whole]

theorem ofText_longJoined {name : String} (no_equals : '=' ∉ name.toList) (value : String) :
    ofText ("--" ++ name ++ "=" ++ value) = .long name (some value) := by
  have chars : ("--" ++ name ++ "=" ++ value).toList =
      '-' :: '-' :: (name.toList ++ '=' :: value.toList) := by simp
  rw [ofText_dashes chars (by simp), Text.takeWhile_until no_equals, value?,
    Text.dropWhile_until no_equals, String.ofList_toList]
  exact congrArg (fun value => long name (some value)) String.ofList_toList

theorem ofText_short {text : String} {letter : Char} {rest : List Char}
    (h : text.toList = '-' :: letter :: rest) (dash : letter ≠ '-') :
    ofText text = .short (letter :: rest) := by
  unfold ofText
  split <;> grind

end Argument

def CommandLine.grant (line : CommandLine) : Request → Except Halt CommandLine
  | .setting s value => line.set s value
  | .switch w => line.turnOn w

theorem CommandLine.isSome_path_set {line line' : CommandLine} {s : Setting} {text : String}
    (h : line.set s text = .ok line') : line'.path.isSome = (line.path.isSome || s == .path) := by
  cases s with
  | path =>
    cases given : fill .path line.path (nonEmpty? text) with
    | error halt => simp [set, given, Except.map] at h
    | ok path =>
      obtain rfl : { line with path } = line' := by simpa [set, given, Except.map] using h
      unfold fill at given
      split at given <;> cases given
      simp
  | format =>
    cases given : fill .format line.format (Format.ofName? text) with
    | error halt => simp [set, given, Except.map] at h
    | ok format =>
      obtain rfl : { line with format } = line' := by simpa [set, given, Except.map] using h
      exact (Bool.or_false _).symm
  | outputDir =>
    cases given : fill .outputDir line.outputDir (nonEmpty? text) with
    | error halt => simp [set, given, Except.map] at h
    | ok outputDir =>
      obtain rfl : { line with outputDir } = line' := by simpa [set, given, Except.map] using h
      exact (Bool.or_false _).symm
  | configFile =>
    cases given : fill .configFile line.configFile (nonEmpty? text) with
    | error halt => simp [set, given, Except.map] at h
    | ok configFile =>
      obtain rfl : { line with configFile } = line' := by simpa [set, given, Except.map] using h
      exact (Bool.or_false _).symm
  | ignore =>
    obtain rfl := Except.ok.inj h
    exact (Bool.or_false _).symm

namespace Reading

def Settles (r : Reading) (line : CommandLine) : Prop := r.settle = .ok { line }

section Settles
variable {r : Reading} {line line' : CommandLine} (h : r.Settles line)
include h

theorem Settles.not_waiting {s : Setting} : r.pending ≠ some (s, none) := by
  intro waiting
  simp [Settles, settle, waiting] at h

theorem Settles.hasPath : r.hasPath = line.path.isSome := by
  unfold Settles settle at h
  unfold Reading.hasPath
  split at h
  · rename_i pending
    obtain rfl := Except.ok.inj h
    exact Bool.or_false _
  · cases h
  · rename_i s text pending
    cases given : r.line.set s text with
    | error halt => simp [given, Except.map] at h
    | ok line' =>
      obtain rfl : line' = line := by simpa [given, Except.map] using h
      rw [CommandLine.isSome_path_set given, pending]
      rfl

theorem Settles.give {s : Setting} {value : String} (set : line.set s value = .ok line') :
    r.give s value = .ok { line := line' } := by
  unfold Reading.give
  rw [h]
  simp [set, bind, Except.bind, pure, Except.pure]

theorem Settles.turnOn {w : Switch} (on : line.turnOn w = .ok line') :
    r.turnOn w = .ok { line := line' } := by
  unfold Reading.turnOn
  rw [h]
  simp [on, bind, Except.bind, pure, Except.pure]

theorem Settles.await (s : Setting) : r.await s = .ok { line, pending := some (s, none) } := by
  unfold Reading.await
  rw [h]
  rfl

theorem Settles.addPlain {value : String} (free : line.path = none) :
    r.addPlain value = .ok { line, pending := some (.path, some value) } := by
  have no_path : r.hasPath = false := by rw [h.hasPath, free]; rfl
  have added : r.addPath value = .ok { line, pending := some (.path, some value) } := by
    unfold Reading.addPath
    rw [no_path, h]
    rfl
  unfold Reading.addPlain
  split
  · rename_i waiting
    exact absurd waiting h.not_waiting
  · exact added

omit h in
theorem settles_self (line : CommandLine) : Settles { line } line := rfl

omit h in
theorem settles_of_set {s : Setting} {value : String} (set : line.set s value = .ok line') :
    Settles { line, pending := some (s, some value) } line' := by
  change Except.map _ (line.set s value) = _
  rw [set]
  rfl

end Settles

theorem addLong_spec {name : String} (r : Reading) :
    (∀ w, Key.ofName? name = some (.switch w) → r.addLong name none = r.turnOn w) ∧
      ∀ s, Key.ofName? name = some (.setting s) → r.addLong name none = r.await s ∧
        ∀ value, r.addLong name (some value) = r.give s value := by
  unfold addLong
  refine ⟨fun w named => ?_, fun s named => ⟨?_, fun value => ?_⟩⟩ <;> rw [named]

theorem addLetters_spec {letter : Char} (r : Reading) :
    (∀ w, Key.ofLetter? letter = some (.switch w) → r.addLetters [letter] = r.turnOn w) ∧
      ∀ s, Key.ofLetter? letter = some (.setting s) → r.addLetters [letter] = r.await s ∧
        (∀ value, r.addLetters (letter :: '=' :: value) = r.give s (String.ofList value)) ∧
        ∀ c value, c ≠ '=' →
          r.addLetters (letter :: c :: value) = r.give s (String.ofList (c :: value)) := by
  refine ⟨fun w known => ?_, fun s known => ⟨?_, fun value => ?_, fun c value other => ?_⟩⟩
  · simp only [addLetters, known]
    exact bind_pure (r.turnOn w)
  · simp only [addLetters, known]
  · simp only [addLetters, known]
  · simp only [addLetters, known]
    split
    · rename_i empty
      cases empty
    · rename_i attached
      exact absurd (List.cons.inj attached).1 other
    · rfl

def Takes (r : Reading) (arg : String) (r' : Reading) : Prop :=
  ∀ rest, r.addAll (arg :: rest) = r'.addAll rest

section Takes
variable {r r' : Reading} {arg : String}

theorem takes_of_ofText :
    (∀ text, Argument.ofText arg = .plain text → r.addPlain text = .ok r' → r.Takes arg r') ∧
      (∀ name value, Argument.ofText arg = .long name value → r.addLong name value = .ok r' →
        r.Takes arg r') ∧
      ∀ letters, Argument.ofText arg = .short letters → r.addLetters letters = .ok r' →
        r.Takes arg r' := by
  unfold Takes
  simp only [addAll]
  refine ⟨fun text reads added rest => ?_, fun name value reads added rest => ?_,
    fun letters reads added rest => ?_⟩ <;>
  · rw [reads]
    simp only [added]
    rfl

theorem takes_value {value : String} (valid : Request.IsValue value) (line : CommandLine)
    (s : Setting) :
    Takes { line, pending := some (s, none) } value { line, pending := some (s, some value) } :=
  takes_of_ofText.1 _ (Argument.ofText_value valid) rfl

end Takes

section Arguments
variable {r : Reading} {line line' : CommandLine} (h : r.Settles line) {name value : String}
  {letter : Char} {s : Setting} {w : Switch}
include h

theorem Settles.takes_path (valid : Request.IsValue value)
    (set : line.set .path value = .ok line') :
    r.Takes value { line, pending := some (.path, some value) } := by
  have free : line.path = none := by
    cases path : line.path with
    | none => rfl
    | some old => simp [CommandLine.set, CommandLine.fill, path, Except.map] at set
  exact takes_of_ofText.1 _ (Argument.ofText_value valid) (h.addPlain free)

theorem Settles.takes_long (known : (name, .setting s) ∈ Request.names) :
    r.Takes ("--" ++ name) { line, pending := some (s, none) } := by
  obtain ⟨named, filled, no_equals⟩ := Request.of_mem_names known
  have waits := ((addLong_spec r).2 s named).1.trans (h.await s)
  exact takes_of_ofText.2.1 _ _ (Argument.ofText_long filled no_equals) waits

theorem Settles.takes_longJoined (known : (name, .setting s) ∈ Request.names)
    (set : line.set s value = .ok line') :
    r.Takes ("--" ++ name ++ "=" ++ value) { line := line' } := by
  obtain ⟨named, -, no_equals⟩ := Request.of_mem_names known
  have given := (((addLong_spec r).2 s named).2 value).trans (h.give set)
  exact takes_of_ofText.2.1 _ _ (Argument.ofText_longJoined no_equals value) given

theorem Settles.takes_longSwitch (known : (name, .switch w) ∈ Request.names)
    (on : line.turnOn w = .ok line') : r.Takes ("--" ++ name) { line := line' } := by
  obtain ⟨named, filled, no_equals⟩ := Request.of_mem_names known
  have turned := ((addLong_spec r).1 w named).trans (h.turnOn on)
  exact takes_of_ofText.2.1 _ _ (Argument.ofText_long filled no_equals) turned

theorem Settles.takes_short (known : (letter, .setting s) ∈ Request.letters) :
    r.Takes ("-" ++ letter.toString) { line, pending := some (s, none) } := by
  obtain ⟨named, dash⟩ := Request.of_mem_letters known
  have chars : ("-" ++ letter.toString).toList = ['-', letter] := by simp
  have waits := ((addLetters_spec r).2 s named).1.trans (h.await s)
  exact takes_of_ofText.2.2 _ (Argument.ofText_short chars dash) waits

theorem Settles.takes_shortJoined (known : (letter, .setting s) ∈ Request.letters)
    (valid : Request.IsValue value) (set : line.set s value = .ok line') :
    r.Takes ("-" ++ letter.toString ++ value) { line := line' } := by
  obtain ⟨named, dash⟩ := Request.of_mem_letters known
  obtain ⟨c, t, text, -, other⟩ := valid
  have chars : ("-" ++ letter.toString ++ value).toList = '-' :: letter :: c :: t := by
    simp [text]
  have same : String.ofList (c :: t) = value := by rw [← text, String.ofList_toList]
  have given := ((addLetters_spec r).2 s named).2.2 c t other
  rw [same, h.give set] at given
  exact takes_of_ofText.2.2 _ (Argument.ofText_short chars dash) given

theorem Settles.takes_shortEquals (known : (letter, .setting s) ∈ Request.letters)
    (set : line.set s value = .ok line') :
    r.Takes ("-" ++ letter.toString ++ "=" ++ value) { line := line' } := by
  obtain ⟨named, dash⟩ := Request.of_mem_letters known
  have chars : ("-" ++ letter.toString ++ "=" ++ value).toList =
      '-' :: letter :: '=' :: value.toList := by simp
  have given := ((addLetters_spec r).2 s named).2.1 value.toList
  rw [String.ofList_toList, h.give set] at given
  exact takes_of_ofText.2.2 _ (Argument.ofText_short chars dash) given

theorem Settles.takes_shortSwitch (known : (letter, .switch w) ∈ Request.letters)
    (on : line.turnOn w = .ok line') : r.Takes ("-" ++ letter.toString) { line := line' } := by
  obtain ⟨named, dash⟩ := Request.of_mem_letters known
  have chars : ("-" ++ letter.toString).toList = ['-', letter] := by simp
  have turned := ((addLetters_spec r).1 w named).trans (h.turnOn on)
  exact takes_of_ofText.2.2 _ (Argument.ofText_short chars dash) turned

/-- A part is read, in whatever way it is spelled, and what it asks for is granted. -/
theorem exists_addAll {request : Request} {args : List String} (valid : request.Valid)
    (spelled : request.Spelled args) (granted : line.grant request = .ok line')
    (rest : List String) :
    ∃ r' : Reading, r'.Settles line' ∧ r.addAll (args ++ rest) = r'.addAll rest := by
  cases spelled with
  | path value =>
    have set : line.set .path value = .ok line' := granted
    exact ⟨_, settles_of_set set, h.takes_path valid.1 set rest⟩
  | @long name s known value =>
    have set : line.set s value = .ok line' := granted
    refine ⟨_, settles_of_set set, (h.takes_long known (value :: rest)).trans ?_⟩
    exact takes_value valid.1 line s rest
  | longJoined known value =>
    exact ⟨_, settles_self line', h.takes_longJoined known granted rest⟩
  | @short letter s known value =>
    have set : line.set s value = .ok line' := granted
    refine ⟨_, settles_of_set set, (h.takes_short known (value :: rest)).trans ?_⟩
    exact takes_value valid.1 line s rest
  | shortJoined known value =>
    exact ⟨_, settles_self line', h.takes_shortJoined known valid.1 granted rest⟩
  | shortEquals known value =>
    exact ⟨_, settles_self line', h.takes_shortEquals known granted rest⟩
  | longSwitch known => exact ⟨_, settles_self line', h.takes_longSwitch known granted rest⟩
  | shortSwitch known => exact ⟨_, settles_self line', h.takes_shortSwitch known granted rest⟩

end Arguments

end Reading

end Snapshot

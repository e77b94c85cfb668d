import Snapshot.Text.Hex
import Snapshot.Yaml.Scalar

/-!
# Reading YAML scalars

The value of a key, read from the character behind the blank after the colon to the end of its last
line. Its first character tells the style. A block ends before the first line that is not moved in
and not empty.
-/

namespace Snapshot.Yaml

def atLineEnd : List Char → Option (List Char)
  | '\n' :: rest => some rest
  | _ => none

/-- A text in single quotes from behind the first one; `skip` spaces are still to be passed over,
as many as lines are moved in by at the start of each. -/
def readSingle (indent : Nat) : Nat → List Char → Option (List Char × List Char)
  | _, [] => none
  | 0, '\'' :: '\'' :: rest => (readSingle indent 0 rest).map fun (s, r) => ('\'' :: s, r)
  | 0, '\'' :: rest => some ([], rest)
  | 0, c :: rest =>
    (readSingle indent (if isBreak c then indent else 0) rest).map fun (s, r) => (c :: s, r)
  | skip + 1, c :: rest =>
    if isBreak c then (readSingle indent indent rest).map fun (s, r) => (c :: s, r)
    else if c == ' ' then readSingle indent skip rest
    else none

def escapeLength? : Char → Option Nat
  | 'x' => some 2
  | 'u' => some 4
  | 'U' => some 8
  | _ => none

def escapeValue? : Char → Option Char
  | '0' => some '\x00'
  | 'a' => some '\x07'
  | 'b' => some '\x08'
  | 't' => some '\t'
  | 'n' => some '\n'
  | 'v' => some '\x0b'
  | 'f' => some '\x0c'
  | 'r' => some '\r'
  | 'e' => some '\x1b'
  | '"' => some '"'
  | '\\' => some '\\'
  | 'N' => some '\u0085'
  | 'L' => some '\u2028'
  | 'P' => some '\u2029'
  | _ => none

def readEscape : List Char → Option (Char × List Char)
  | [] => none
  | letter :: rest =>
    match escapeLength? letter with
    | some n => (natural? 16 (rest.take n)).map fun code => (Char.ofNat code, rest.drop n)
    | none => (escapeValue? letter).map fun c => (c, rest)

theorem length_of_readEscape {text rest : List Char} {c : Char}
    (h : readEscape text = some (c, rest)) : rest.length < text.length := by
  cases text with
  | nil => cases h
  | cons letter text =>
    rw [readEscape] at h
    split at h
    · obtain ⟨code, -, same⟩ := Option.map_eq_some_iff.1 h
      obtain ⟨-, rfl⟩ := Prod.mk.inj same
      rw [List.length_drop, List.length_cons]
      omega
    · obtain ⟨_, -, same⟩ := Option.map_eq_some_iff.1 h
      obtain ⟨-, rfl⟩ := Prod.mk.inj same
      exact Nat.lt_succ_self _

def readDouble : List Char → Option (List Char × List Char)
  | [] => none
  | c :: rest =>
    if c == '"' then some ([], rest)
    else if c == '\\' then
      match _read : readEscape rest with
      | some (c, rest) => (readDouble rest).map fun (s, r) => (c :: s, r)
      | none => none
    else (readDouble rest).map fun (s, r) => (c :: s, r)
termination_by text => text.length
decreasing_by
  · exact Nat.lt_succ_of_lt (length_of_readEscape _read)
  · exact Nat.lt_succ_self _

/-- The lines of a block, moved back, and what stands behind them. -/
def readBlock (indent : Nat) : Nat → List Char → List Char × List Char
  | _, [] => ([], [])
  | 0, c :: rest => (readBlock indent (if isBreak c then indent else 0) rest).map (c :: ·) id
  | skip + 1, c :: rest =>
    if isBreak c then (readBlock indent indent rest).map (c :: ·) id
    else if skip + 1 = indent && !(List.replicate indent ' ').isPrefixOf (c :: rest) then
      ([], c :: rest)
    else readBlock indent skip rest

def readScalar? (indent : Nat) : List Char → Option (List Char × List Char)
  | '\'' :: text => do
    let (s, rest) ← readSingle indent 0 text
    return (s, ← atLineEnd rest)
  | '"' :: text => do
    let (s, rest) ← readDouble text
    return (s, ← atLineEnd rest)
  | '|' :: text => do
    let head := text.takeWhile (· != '\n')
    let (s, rest) := readBlock indent indent (← atLineEnd (text.dropWhile (· != '\n')))
    return (if head.contains '-' then s.dropLast else s, rest)
  | text => do
    return (text.takeWhile (· != '\n'), ← atLineEnd (text.dropWhile (· != '\n')))

end Snapshot.Yaml

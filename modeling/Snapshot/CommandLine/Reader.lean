import Snapshot.CommandLine

/-!
# Reading command lines

An argument is the separator `--`, a name after two dashes, letters after one dash, or a plain text.
A plain text behind a setting that still needs a value is that value, and any other one is the
path. Behind the separator all texts are plain, and none is a value.

A value that stands in an argument of its own is looked at only when the next setting, switch or
path comes, or the line ends. So an unknown argument is found before it.
-/

namespace Snapshot

inductive Argument
  | separator
  | long (name : String) (value : Option String)
  | short (letters : List Char)
  | plain (text : String)
  deriving DecidableEq, Repr

def Argument.value? (text : List Char) : Option String :=
  match text.dropWhile (· != '=') with
  | [] => none
  | _ :: value => some (String.ofList value)

def Argument.ofText (text : String) : Argument :=
  match text.toList with
  | ['-', '-'] => separator
  | '-' :: '-' :: rest => long (String.ofList (rest.takeWhile (· != '='))) (value? rest)
  | '-' :: c :: rest => short (c :: rest)
  | _ => plain text

structure Reading where
  line : CommandLine := {}
  pending : Option (Setting × Option String) := none
  deriving DecidableEq, Repr

namespace Reading

def settle (r : Reading) : Except Halt Reading :=
  match r.pending with
  | none => .ok r
  | some (s, none) => .error (.invalidValue s)
  | some (s, some text) => (r.line.set s text).map ({ line := · })

def give (r : Reading) (s : Setting) (text : String) : Except Halt Reading := do
  let r ← r.settle
  return { r with line := ← r.line.set s text }

def await (r : Reading) (s : Setting) : Except Halt Reading := do
  return { ← r.settle with pending := some (s, none) }

def turnOn (r : Reading) (w : Switch) : Except Halt Reading := do
  let r ← r.settle
  return { r with line := ← r.line.turnOn w }

def hasPath (r : Reading) : Bool := r.line.path.isSome || r.pending.any (·.1 == .path)

def addPath (r : Reading) (text : String) : Except Halt Reading := do
  if r.hasPath then .error (.unknownArgument text)
  else return { ← r.settle with pending := some (.path, some text) }

def addPlain (r : Reading) (text : String) : Except Halt Reading :=
  match r.pending with
  | some (s, none) => .ok { r with pending := some (s, some text) }
  | _ => r.addPath text

def addLong (r : Reading) (name : String) (value : Option String) : Except Halt Reading :=
  match Key.ofName? name, value with
  | none, _ => .error (.unknownArgument ("--" ++ name))
  | some (.switch w), none => r.turnOn w
  | some (.switch w), some _ => .error (.unwantedValue w)
  | some (.setting s), none => r.await s
  | some (.setting s), some text => r.give s text

/-- The letters after one dash: switches, and at the end perhaps a setting with its value. -/
def addLetters (r : Reading) : List Char → Except Halt Reading
  | [] => .ok r
  | c :: rest =>
    match Key.ofLetter? c with
    | none => .error (.unknownArgument (String.ofList ['-', c]))
    | some (.switch w) => do (← r.turnOn w).addLetters rest
    | some (.setting s) =>
      match rest with
      | [] => r.await s
      | '=' :: value | value => r.give s (String.ofList value)

def addAll (r : Reading) : List String → Except Halt Reading
  | [] => .ok r
  | text :: rest =>
    match Argument.ofText text with
    | .separator => rest.foldlM addPath r
    | .long name value => do (← r.addLong name value).addAll rest
    | .short letters => do (← r.addLetters letters).addAll rest
    | .plain text => do (← r.addPlain text).addAll rest

end Reading

def CommandLine.ofArguments (args : List String) : Except Halt CommandLine := do
  let r ← Reading.addAll {} args
  return (← r.settle).line

end Snapshot

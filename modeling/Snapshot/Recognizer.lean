import Snapshot.Declaration
import Snapshot.Text.Bytes
import Snapshot.Text.Case
import Snapshot.Pattern.Search

/-!
# Recognizers

A recognizer finds the declarations of one kind in a text by a pattern: one group of the pattern is
the name, and for imports another is the module. Patterns look at the text alone, so what stands in
a comment or a string is found too.
-/

namespace Snapshot

structure Sighting where
  kind : Kind
  name : String
  start : Nat
  source : Option String
  deriving DecidableEq, Repr

structure Recognizer where
  kind : Kind
  pattern : Pattern
  nameGroup : Nat
  sourceGroup : Option Nat := none
  deriving DecidableEq, Repr

namespace Recognizer

open Pattern

def sighting? (r : Recognizer) (text : List Char) (m : Match) : Option Sighting := do
  let name ← m.span? r.nameGroup
  let source ← match r.sourceGroup with
    | none => some none
    | some n => (m.span? n).map fun s => some (String.ofList (s.slice text))
  return {
    kind := r.kind
    name := String.ofList (name.slice text)
    start := Text.byteSize (text.take m.start)
    source }

/-- The matches in a text, in order. A match in which the name's group or the module's took no part
is left out. -/
def recognize (r : Recognizer) (content : String) : List Sighting :=
  (r.pattern.matchesIn content.toList).filterMap (r.sighting? content.toList)

end Recognizer

namespace Kind

open Pattern

def letter : CharSet := .union (.range 'a' 'z') (.range 'A' 'Z')
def nameChar : CharSet := .union letter (.union (.range '0' '9') (.single '_'))
def capital : CharSet := .range 'A' 'Z'
def quotes : CharSet := .ofList ['\'', '"']

def nameRun : Pattern := many1 (char nameChar)
def exported : Pattern := opt (seq (word "export") blanks1)
def functionOrConst : Pattern := seq (alt (word "function") (word "const")) blanks1
def parameters : Pattern :=
  concat [word "(", many (char (.compl (.single ')'))), word ")"]
def equals : Pattern := concat [blanks, word "=", blanks]

def signature : Pattern :=
  choice [parameters, seq equals parameters, concat [equals, nameRun, blanks, word "=>"]]

/-- The pattern of a kind. Group 1 is the name; for imports it is the list of bound names, and group
2 is the module. -/
def pattern : Kind → Pattern
  | function => concat [exported, opt (seq (word "async") blanks1), functionOrConst,
      group 1 nameRun, blanks, signature]
  | component => concat [exported, functionOrConst, group 1 nameRun, blanks, signature, blanks,
      opt (word "=>"), blanks, word "\x7b"]
  | hook => concat [exported, functionOrConst,
      group 1 (concat [word "use", char capital, many (char nameChar)])]
  | classDef => concat [exported, word "class", blanks1, group 1 nameRun]
  | interface => concat [exported, word "interface", blanks1, group 1 nameRun]
  | decorator => concat [word "export", blanks1, word "function", blanks1,
      group 1 (concat [char capital, many (char nameChar),
        alt (word "Module") (word "Decorator")]), edge .wordEdge]
  | importClause => concat [word "import", blanks1, opt (word "\x7b"), blanks,
      group 1 (many (char (.compl (.single '}'))) false), blanks, opt (word "\x7d"), blanks1,
      word "from", blanks1, char quotes, group 2 (many1 (char (.compl quotes))), char quotes]

def recognizer (k : Kind) : Recognizer :=
  ⟨k, k.pattern, 1, if k = importClause then some 2 else none⟩

def startsLikeHook : List Char → Bool
  | 'u' :: 's' :: 'e' :: c :: _ => c.isUpper
  | _ => false

def accepts (k : Kind) (name : String) : Bool :=
  match name.toList with
  | [] => false
  | c :: rest => c != '_' && match k with
    | component => Text.isUppercase c
    | hook => startsLikeHook (c :: rest)
    | _ => true

end Kind

end Snapshot

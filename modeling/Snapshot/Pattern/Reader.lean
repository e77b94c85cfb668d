import Snapshot.Pattern.Basic

/-!
# Patterns as text

The written form of a pattern: literal characters, classes in brackets, groups in parentheses, `|`
between alternatives, and `?`, `*` and `+` after what they repeat, with another `?` if they are
lazy. A backslash makes a mark literal; `\s` and `\S` are blanks and all else. `^` and `\A` stand
for the start of the text, `$` and `\z` for its end, `\b` for the edge of a word and `\B` for any
other place, `\<` and `\>` for where a word starts and ends.

Alternatives that begin alike are read as one beginning with a choice after it, so how the beginning
matches comes before which alternative does: `a*a|a*b` is `a*(?:a|b)`.
-/

namespace Snapshot.Pattern

inductive SyntaxError
  | unclosedGroup
  | unopenedGroup
  | unclosedClass
  | reversedRange (lo hi : Char)
  | nothingToRepeat
  | unknownMark (c : Char)
  | nestedTooDeep
  deriving DecidableEq, Repr

def takesNone : Pattern → Bool
  | empty | edge _ => true
  | char _ => false
  | seq a b | alt a b => a.takesNone && b.takesNone
  | star _ a | plus _ a | group _ a => a.takesNone

/-- The rounds of a loop; what takes no character is not repeated. -/
def zeroOrMore (greedy : Bool) (p : Pattern) : Pattern :=
  if p.takesNone then opt p greedy else many p greedy

def oneOrMore (greedy : Bool) (p : Pattern) : Pattern :=
  if p.takesNone then p else many1 p greedy

def parts : Pattern → List Pattern
  | empty => []
  | seq a b => a.parts ++ b.parts
  | p => [p]

def commonStart : List Pattern → List Pattern → List Pattern
  | p :: ps, q :: qs => if p = q then p :: commonStart ps qs else []
  | _, _ => []

/-- What all alternatives begin with. One that is a single part begins like no other. -/
def sharedStart (ps : List Pattern) : List Pattern :=
  match ps.map parts with
  | q :: q' :: qs =>
    if (q :: q' :: qs).all (2 ≤ ·.length) then (q' :: qs).foldl commonStart q else []
  | _ => []

def choiceAfterStart (ps : List Pattern) : Pattern :=
  match sharedStart ps with
  | [] => choice ps
  | start => concat (start ++ [choice (ps.map fun p => concat (p.parts.drop start.length))])

structure Item where
  pattern : Pattern
  depth : Nat

def Item.combine (make : List Pattern → Pattern) (items : List Item) : Item :=
  { pattern := make (items.map (·.pattern))
    depth := items.foldr (fun i d => Nat.max i.depth d) 0 + if items.length ≤ 1 then 0 else 1 }

def maxDepth : Nat := 250

structure OpenGroup where
  number : Option Nat
  alternatives : List Item := []
  items : List Item := []

namespace OpenGroup

def push (g : OpenGroup) (i : Item) : OpenGroup := { g with items := i :: g.items }

def nextAlternative (g : OpenGroup) : OpenGroup :=
  { g with alternatives := .combine concat g.items.reverse :: g.alternatives, items := [] }

def repeatLast (g : OpenGroup) (repeated : Pattern → Pattern) : Except SyntaxError OpenGroup :=
  match g.items with
  | [] => .error .nothingToRepeat
  | i :: items => .ok { g with items := ⟨repeated i.pattern, i.depth + 1⟩ :: items }

def content (g : OpenGroup) : Item :=
  .combine choiceAfterStart g.nextAlternative.alternatives.reverse

def close (g : OpenGroup) : Item :=
  { pattern := match g.number with
      | some n => group n g.content.pattern
      | none => g.content.pattern
    depth := g.content.depth + 1 }

end OpenGroup

inductive LastMember
  | none
  | literal (c : Char)
  | set
  deriving DecidableEq, Repr

structure OpenClass where
  negated : Bool
  members : CharSet := .none
  fresh : Bool := true
  leading : Bool := true
  last : LastMember := .none
  inRange : Bool := false

namespace OpenClass

def add (k : OpenClass) (s : CharSet) (last : LastMember) : OpenClass :=
  { k with
    members := .union k.members s, fresh := false, leading := false, last, inRange := false }

def addLeading (k : OpenClass) (c : Char) : OpenClass :=
  { k with members := .union k.members (.single c), fresh := false }

def addLiteral (k : OpenClass) (c : Char) : Except SyntaxError OpenClass :=
  if !k.inRange then .ok (k.add (.single c) (.literal c))
  else match k.last with
    | .literal lo =>
      if lo ≤ c then .ok (k.add (.range lo c) .none) else .error (.reversedRange lo c)
    | _ => .error (.unknownMark '-')

def addSet (k : OpenClass) (s : CharSet) : Except SyntaxError OpenClass :=
  if k.inRange then .error (.unknownMark '-') else .ok (k.add s .set)

def addDash (k : OpenClass) (after : List Char) : Except SyntaxError OpenClass :=
  if k.leading then .ok (k.addLeading '-')
  else if after.head? = some '-' then .error (.unknownMark '-')
  else if k.last = .none || after.head? = some ']' then k.addLiteral '-'
  else .ok { k with inRange := true }

def close (k : OpenClass) : Item :=
  ⟨char (if k.negated then .compl k.members else k.members), 1⟩

end OpenClass

def isMark (c : Char) : Bool := c.toNat < 128 && !c.isAlphanum && c != '<' && c != '>'

def escaped? : Char → Option Pattern
  | 's' => some (char .blank)
  | 'S' => some (char (.compl .blank))
  | 'A' => some (edge .textStart)
  | 'z' => some (edge .textEnd)
  | 'b' => some (edge .wordEdge)
  | 'B' => some (edge .noWordEdge)
  | '<' => some (edge .wordStart)
  | '>' => some (edge .wordEnd)
  | c => if isMark c then some (char (.single c)) else none

def OpenClass.addEscaped (k : OpenClass) : Char → Except SyntaxError OpenClass
  | 's' => k.addSet .blank
  | 'S' => k.addSet (.compl .blank)
  | c => if isMark c then k.addLiteral c else .error (.unknownMark c)

/-- Reads on inside the innermost group, or inside a class of it. `count` is the number of groups
opened so far and `outer` holds the groups around, innermost first. -/
def readFrom (count : Nat) (g : OpenGroup) (outer : List OpenGroup) :
    Option OpenClass → List Char → Except SyntaxError Pattern
  | some _, [] => .error .unclosedClass
  | some k, '\\' :: c :: rest =>
    (k.addEscaped c).bind fun k => readFrom count g outer (some k) rest
  | some k, '-' :: rest => (k.addDash rest).bind fun k => readFrom count g outer (some k) rest
  | some k, ']' :: rest =>
    if k.fresh then readFrom count g outer (some { k.addLeading ']' with leading := false }) rest
    else readFrom count (g.push k.close) outer none rest
  | some k, c :: rest =>
    if c = '\\' || (c = '[' && !k.inRange) ||
        ((c = '&' || c = '~') && !k.inRange && rest.head? = some c) then .error (.unknownMark c)
    else (k.addLiteral c).bind fun k => readFrom count g outer (some k) rest
  | none, [] =>
    if !outer.isEmpty then .error .unclosedGroup
    else if g.content.depth ≤ maxDepth then .ok g.content.pattern else .error .nestedTooDeep
  | none, '(' :: '?' :: ':' :: rest => readFrom count ⟨none, [], []⟩ (g :: outer) none rest
  | none, '(' :: '?' :: _ => .error (.unknownMark '?')
  | none, '(' :: rest => readFrom (count + 1) ⟨some (count + 1), [], []⟩ (g :: outer) none rest
  | none, ')' :: rest =>
    match outer with
    | [] => .error .unopenedGroup
    | around :: outer => readFrom count (around.push g.close) outer none rest
  | none, '|' :: rest => readFrom count g.nextAlternative outer none rest
  | none, '[' :: '^' :: rest => readFrom count g outer (some { negated := true }) rest
  | none, '[' :: rest => readFrom count g outer (some { negated := false }) rest
  | none, '\\' :: c :: rest =>
    match escaped? c with
    | some p => readFrom count (g.push ⟨p, 0⟩) outer none rest
    | none => .error (.unknownMark c)
  | none, '*' :: '?' :: rest =>
    (g.repeatLast (zeroOrMore false)).bind (readFrom count · outer none rest)
  | none, '+' :: '?' :: rest =>
    (g.repeatLast (oneOrMore false)).bind (readFrom count · outer none rest)
  | none, '?' :: '?' :: rest =>
    (g.repeatLast (opt · false)).bind (readFrom count · outer none rest)
  | none, '*' :: rest => (g.repeatLast (zeroOrMore true)).bind (readFrom count · outer none rest)
  | none, '+' :: rest => (g.repeatLast (oneOrMore true)).bind (readFrom count · outer none rest)
  | none, '?' :: rest => (g.repeatLast opt).bind (readFrom count · outer none rest)
  | none, '^' :: rest => readFrom count (g.push ⟨edge .textStart, 0⟩) outer none rest
  | none, '$' :: rest => readFrom count (g.push ⟨edge .textEnd, 0⟩) outer none rest
  | none, c :: rest =>
    if ['.', '\\', '\x7b'].contains c then .error (.unknownMark c)
    else readFrom count (g.push ⟨char (.single c), 0⟩) outer none rest

def read (text : List Char) : Except SyntaxError Pattern :=
  readFrom 0 ⟨none, [], []⟩ [] none text

end Snapshot.Pattern

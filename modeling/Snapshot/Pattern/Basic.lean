import Snapshot.Text.Blank
import Snapshot.Text.Word

/-!
# Text patterns

A pattern describes a stretch of text. Of two ways to match, a choice prefers its left side, a
greedy loop one more round, and a lazy loop one round less. Groups give names, by number, to the
stretches that parts of the pattern matched. A round of a loop takes at least one character, except
that the first round of `plus` may take none; then it is the last one.
-/

namespace Snapshot

inductive CharSet
  | none
  | range (lo hi : Char)
  | blank
  | union (a b : CharSet)
  | compl (a : CharSet)
  deriving DecidableEq, Repr

namespace CharSet

def has : CharSet → Char → Bool
  | none, _ => false
  | range lo hi, c => decide (lo ≤ c) && decide (c ≤ hi)
  | blank, c => Text.isBlank c
  | union a b, c => a.has c || b.has c
  | compl a, c => !a.has c

def single (c : Char) : CharSet := range c c
def any : CharSet := compl none
def ofList (cs : List Char) : CharSet := cs.foldr (fun c s => union (single c) s) none

end CharSet

/-- A condition on a place in a text that takes no character. Lines end in a newline, with `crlf` in
a carriage return, a newline or both together; with `ascii` words are made of ASCII characters. -/
inductive Edge
  | textStart
  | textEnd
  | lineStart (crlf : Bool := false)
  | lineEnd (crlf : Bool := false)
  | wordEdge (ascii : Bool := false)
  | noWordEdge (ascii : Bool := false)
  | wordStart (ascii : Bool := false)
  | wordEnd (ascii : Bool := false)
  | noWordBefore (ascii : Bool := false)
  | noWordAfter (ascii : Bool := false)
  deriving DecidableEq, Repr

namespace Edge

def inWord (ascii : Bool) (c : Option Char) : Bool :=
  c.any fun c => if ascii then c.isAlphanum || c == '_' else Text.isWord c

/-- The condition holds between the character before a place, if any, and the text after it. The
place between a carriage return and its newline is neither the end nor the start of a line. -/
def holds (before : Option Char) (after : List Char) : Edge → Bool
  | textStart => before.isNone
  | textEnd => after.isEmpty
  | lineStart false => before.all (· == '\n')
  | lineStart true => before.all fun c => c == '\n' || c == '\r' && after.head? != some '\n'
  | lineEnd false => after.head?.all (· == '\n')
  | lineEnd true => after.head?.all fun c => c == '\r' || c == '\n' && before != some '\r'
  | wordEdge ascii => inWord ascii before != inWord ascii after.head?
  | noWordEdge ascii => inWord ascii before == inWord ascii after.head?
  | wordStart ascii => !inWord ascii before && inWord ascii after.head?
  | wordEnd ascii => inWord ascii before && !inWord ascii after.head?
  | noWordBefore ascii => !inWord ascii before
  | noWordAfter ascii => !inWord ascii after.head?

end Edge

inductive Pattern
  | empty
  | char (s : CharSet)
  | edge (e : Edge)
  | seq (a b : Pattern)
  | alt (a b : Pattern)
  | star (greedy : Bool) (a : Pattern)
  | plus (greedy : Bool) (a : Pattern)
  | group (n : Nat) (a : Pattern)
  deriving DecidableEq, Repr

namespace Pattern

def nullable : Pattern → Bool
  | empty | edge _ | star .. => true
  | char _ => false
  | seq a b => a.nullable && b.nullable
  | alt a b => a.nullable || b.nullable
  | plus _ a | group _ a => a.nullable

def first : Pattern → CharSet
  | empty | edge _ => .none
  | char s => s
  | seq a b => if a.nullable then .union a.first b.first else a.first
  | alt a b => .union a.first b.first
  | star _ a | plus _ a | group _ a => a.first

def mayStart (p : Pattern) (after : List Char) : Bool := p.nullable || after.head?.any p.first.has

def ofList : List Char → Pattern
  | [] => empty
  | [c] => char (.single c)
  | c :: cs => seq (char (.single c)) (ofList cs)

def word (s : String) : Pattern := ofList s.toList

def concat : List Pattern → Pattern
  | [] => empty
  | [p] => p
  | p :: ps => seq p (concat ps)

def choice : List Pattern → Pattern
  | [] => char .none
  | [p] => p
  | p :: ps => alt p (choice ps)

def opt (p : Pattern) (greedy : Bool := true) : Pattern :=
  if greedy then alt p empty else alt empty p

def many1 (p : Pattern) (greedy : Bool := true) : Pattern := plus greedy p

def many (p : Pattern) (greedy : Bool := true) : Pattern :=
  if p.nullable then opt (plus greedy p) greedy else star greedy p

def blanks : Pattern := many (char .blank)
def blanks1 : Pattern := many1 (char .blank)

end Pattern

end Snapshot

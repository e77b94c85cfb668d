import Snapshot.Pattern.Match

/-!
# Searching

The matches of a pattern in a text, from left to right, none inside another. A search goes on where
the last match ended. An empty match may not touch the end of the match before it.
-/

namespace Snapshot.Pattern

/-- Searches the text `after` a place. Matches begin at `resume` or later; `last` is the end of the
match before. -/
def search (p : Pattern) : List Char → Option Char → Nat → Nat → Option Nat → List Match
  | after, before, index, resume, last =>
    let found := if index < resume then none else p.matchAt ⟨before, after, index⟩
    match found.filter fun m => !(m.stop == index && last == some index) with
    | some m => m :: (match after with
      | [] => []
      | c :: rest => search p rest (some c) (index + 1) m.stop (some m.stop))
    | none => match after with
      | [] => []
      | c :: rest => search p rest (some c) (index + 1) resume last

def matchesIn (p : Pattern) (text : List Char) : List Match := p.search text none 0 0 none

def Span.slice (s : Span) (text : List Char) : List Char :=
  (text.drop s.start).take (s.stop - s.start)

def replaceFrom (new : List Char) : List Match → Nat → List Char → List Char
  | [], _, rest => rest
  | m :: ms, index, rest =>
    rest.take (m.start - index) ++ new ++ replaceFrom new ms m.stop (rest.drop (m.stop - index))

def replaceAll (p : Pattern) (new text : List Char) : List Char :=
  replaceFrom new (p.matchesIn text) 0 text

end Snapshot.Pattern

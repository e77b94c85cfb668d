import Snapshot.Pattern.Basic

/-!
# Matching

All ways to match are followed at once, one character at a time. Each is a thread: what is left of
the pattern, and the groups so far. Threads are kept in order of preference. A thread that is done
shuts out those after it, and one that comes to the same work left as a thread before it stops,
since it could only repeat that one. The match is that of the last thread to be done.

Nor does a thread come to a part of the pattern twice without taking a character: the first way to
be done with a part leaves nothing to the others, and a new round of a loop does not go through what
the round before has just gone through.
-/

namespace Snapshot.Pattern

structure Span where
  start : Nat
  stop : Nat
  deriving DecidableEq, Repr

structure Groups where
  entered : List (Nat × Nat) := []
  spans : List (Nat × Span) := []
  deriving DecidableEq, Repr

namespace Groups

def enter (g : Groups) (n index : Nat) : Groups := { g with entered := (n, index) :: g.entered }

def leave (g : Groups) (n index : Nat) : Groups :=
  match g.entered.lookup n with
  | some start => { g with spans := (n, ⟨start, index⟩) :: g.spans }
  | none => g

end Groups

structure Spot where
  before : Option Char
  after : List Char
  index : Nat

/-- Work left. Parts of a pattern are numbered as in a heap: those of part `n` are `2 * n` and
`2 * n + 1`, and the whole is 1. -/
inductive Task
  | run (n : Nat) (p : Pattern)
  -- More rounds of a loop over part `n`.
  | again (n : Nat) (greedy : Bool) (p : Pattern)
  | leave (k : Nat)
  deriving DecidableEq, Repr

inductive Head
  | done (g : Groups)
  | take (n : Nat) (s : CharSet) (left : List Task) (g : Groups)
  deriving DecidableEq, Repr

namespace Head

def isDone : Head → Bool
  | done _ => true
  | take .. => false

def part? : Head → Option Nat
  | done _ => none
  | take n .. => some n

def append (tasks : List Task) : Head → Head
  | done g => done g
  | take n s left g => take n s (left ++ tasks) g

end Head

def tasksOf : Nat → Pattern → List Task
  | _, empty => []
  | n, seq a b => tasksOf (2 * n) a ++ tasksOf (2 * n + 1) b
  | n, p => [.run n p]

def takes (hs : List Head) : List Head := hs.filter (!·.isDone)

def offers (hs : List Head) : List Nat := hs.filterMap Head.part?

def orElse (hs others : List Head) : List Head :=
  hs ++ if hs.any Head.isDone then takes others else others

def heads (spot : Spot) : Nat → Pattern → Groups → List Head
  | _, empty, g => [.done g]
  | n, char s, g => [.take n s [] g]
  | _, edge e, g => if e.holds spot.before spot.after then [.done g] else []
  | n, seq a b, g => (heads spot (2 * n) a g).flatMap fun
    | .done g => heads spot (2 * n + 1) b g
    | .take m s left g => [.take m s (left ++ tasksOf (2 * n + 1) b) g]
  | n, alt a b, g => orElse (heads spot (2 * n) a g) (heads spot (2 * n + 1) b g)
  | n, star greedy a, g =>
    let more := (takes (heads spot (2 * n) a g)).map (·.append [.run n (star greedy a)])
    if greedy then more ++ [.done g] else .done g :: more
  | n, plus greedy a, g => (heads spot (2 * n) a g).map (·.append [.again (2 * n) greedy a])
  | n, group k a, g => (heads spot (2 * n) a (g.enter k spot.index)).map fun
    | .done g => .done (g.leave k spot.index)
    | .take m s left g => .take m s (left ++ [.leave k]) g

def passes (spot : Spot) : Pattern → Bool
  | empty | star .. => true
  | char _ => false
  | edge e => e.holds spot.before spot.after
  | seq a b => a.passes spot && b.passes spot
  | alt a b => a.passes spot || b.passes spot
  | plus _ a | group _ a => a.passes spot

def Task.passes (spot : Spot) : Task → Bool
  | run _ p => p.passes spot
  | again .. | leave _ => true

/-- The heads of a list of tasks. Lists in `seen` have had their heads already. `passed` holds what
the tasks before the list offer: a new round of a loop adds only what is not among them. -/
def headsOfTasks (spot : Spot) (seen : List (List Task)) (passed : List Nat) :
    List Task → Groups → List Head
  | [], g => [.done g]
  | t :: rest, g =>
    if seen.contains (t :: rest) then [] else match t with
    | .run n p =>
      let hs := heads spot n p g
      hs.flatMap fun
      | .done g => headsOfTasks spot seen (offers hs ++ passed) rest g
      | .take m s left g => [.take m s (left ++ rest) g]
    | .again n greedy p =>
      let fresh := (takes (heads spot n p g)).filter fun h => !h.part?.any passed.contains
      let more := fresh.map (·.append (.again n greedy p :: rest))
      let out := headsOfTasks spot seen passed rest g
      if greedy then more ++ out else out ++ more
    | .leave k => headsOfTasks spot seen passed rest (g.leave k spot.index)

/-- The lists of work left that a list of tasks comes to here, up to one in `seen`. -/
def comesTo (spot : Spot) (seen : List (List Task)) : List Task → List (List Task)
  | [] => []
  | t :: rest =>
    if seen.contains (t :: rest) then []
    else (t :: rest) :: if t.passes spot then comesTo spot seen rest else []

structure Thread where
  tasks : List Task
  groups : Groups
  deriving DecidableEq, Repr

def headsOfThreads (spot : Spot) (seen : List (List Task)) : List Thread → List Head
  | [] => []
  | t :: ts =>
    headsOfTasks spot seen [] t.tasks t.groups ++
      headsOfThreads spot (comesTo spot seen t.tasks ++ seen) ts

def firstDone : List Head → Option Groups
  | [] => none
  | .done g :: _ => some g
  | .take .. :: rest => firstDone rest

def advance (c : Char) : List Head → List Thread
  | [] | .done _ :: _ => []
  | .take _ s left g :: rest => if s.has c then ⟨left, g⟩ :: advance c rest else advance c rest

structure Match extends Span where
  groups : Groups
  deriving DecidableEq, Repr

/-- Runs the threads over the text `after` a place; `best` is the match so far. -/
def race (start : Nat) : List Char → Option Char → Nat → List Thread → Option Match → Option Match
  | after, before, index, threads, best =>
    let hs := headsOfThreads ⟨before, after, index⟩ [] threads
    let best := match firstDone hs with
      | some g => some ⟨⟨start, index⟩, g⟩
      | none => best
    match after with
    | [] => best
    | c :: rest =>
      match advance c hs with
      | [] => best
      | threads => race start rest (some c) (index + 1) threads best

def matchAt (p : Pattern) (spot : Spot) : Option Match :=
  if p.mayStart spot.after then
    race spot.index spot.after spot.before spot.index [⟨[.run 1 p], {}⟩] none
  else none

def Match.span? (m : Match) (n : Nat) : Option Span :=
  if n = 0 then some m.toSpan else m.groups.spans.lookup n

end Snapshot.Pattern

/-!
# Runs of code points

A property of characters is kept as a list of runs. A run holds every `step`-th code point from
`first` to `last`, so that a block which alternates two cases takes one entry.
-/

namespace Snapshot.Text

structure Run where
  first : Nat
  last : Nat
  step : Nat := 1
  deriving DecidableEq, Repr

def Run.has (r : Run) (n : Nat) : Bool :=
  decide (r.first ≤ n) && decide (n ≤ r.last) && (n - r.first) % r.step == 0

def covers (runs : List Run) (c : Char) : Bool := runs.any (·.has c.toNat)

end Snapshot.Text

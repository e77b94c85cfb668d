/-!
# Shapes of byte strings

What a glob says of a path, byte by byte. A string is matched from its end to its start. For each
of its places, the end included, a table says whether the string from there on is matched; a shape
turns the table of what follows it into its own. So a match costs no more than the size of the shape
times the length of the string.
-/

namespace Snapshot.Glob

structure ByteSet where
  negated : Bool := false
  ranges : List (UInt8 × UInt8)
  deriving DecidableEq, Repr

namespace ByteSet

def has (s : ByteSet) (b : UInt8) : Bool :=
  s.ranges.any (fun (lo, hi) => lo ≤ b && b ≤ hi) != s.negated

def any : ByteSet := ⟨true, []⟩

def single (b : UInt8) : ByteSet := ⟨false, [(b, b)]⟩

def noSlash : ByteSet := ⟨true, [(47, 47)]⟩

end ByteSet

inductive Shape
  | empty
  | byte (s : ByteSet)
  | many (s : ByteSet)
  | seq (a b : Shape)
  | alt (a b : Shape)
  deriving DecidableEq, Repr

namespace Shape

def beforeByte (s : ByteSet) : List UInt8 → List Bool → List Bool
  | b :: rest, _ :: good :: goods => (s.has b && good) :: beforeByte s rest (good :: goods)
  | _, _ => [false]

def beforeMany (s : ByteSet) : List UInt8 → List Bool → List Bool
  | b :: rest, good :: goods =>
    let later := beforeMany s rest goods
    (good || s.has b && later.headD false) :: later
  | _, goods => goods

/-- The places of a string from where the shape leads to a good place. -/
def before : Shape → List UInt8 → List Bool → List Bool
  | empty, _, goods => goods
  | byte s, bytes, goods => beforeByte s bytes goods
  | many s, bytes, goods => beforeMany s bytes goods
  | seq a b, bytes, goods => a.before bytes (b.before bytes goods)
  | alt a b, bytes, goods => List.zipWith or (a.before bytes goods) (b.before bytes goods)

def accepts (p : Shape) (bytes : List UInt8) : Bool :=
  (p.before bytes (bytes.map (fun _ => false) ++ [true])).headD false

def concat : List Shape → Shape
  | [] => empty
  | [p] => p
  | p :: ps => seq p (concat ps)

def slash : Shape := byte (.single 47)

def choice : List Shape → Shape
  | [] => empty
  | [p] => p
  | p :: ps => alt p (choice ps)

end Shape

end Snapshot.Glob

import Snapshot.Glob.Shape

/-!
# Globs

A glob describes paths: `?` is one byte and `*` any number of them, `**` between slashes any number
of directories, brackets hold a class of bytes, braces hold alternatives, and a backslash makes a
mark literal. A class is one of bytes, not of characters: a character of several bytes adds each of
them, and a range with such an end runs from the last byte of its first character to the first byte
of its last.
-/

namespace Snapshot.Glob

inductive Fault
  | unclosedClass
  | invalidRange (lo hi : Char)
  | unopenedAlternates
  | unclosedAlternates
  | danglingEscape
  deriving DecidableEq, Repr

def Fault.message : Fault → String
  | unclosedClass => "unclosed character class; missing ']'"
  | invalidRange lo hi => "invalid range; '" ++ lo.toString ++ "' > '" ++ hi.toString ++ "'"
  | unopenedAlternates =>
    "unopened alternate group; missing '\x7b' (maybe escape '\x7d' with '[\x7d]'?)"
  | unclosedAlternates =>
    "unclosed alternate group; missing '\x7d' (maybe escape '\x7b' with '[\x7b]'?)"
  | danglingEscape => "dangling '\\'"

structure Options where
  separateDirs : Bool := false
  -- Whether a bracket that is never closed stands for itself.
  literalBracket : Bool := false
  deriving DecidableEq, Repr

inductive Token
  | literal (c : Char)
  | anyByte
  | anyBytes
  -- Two stars and a slash at the start.
  | leadingDirs
  -- Two stars after a slash at the end.
  | trailing
  -- Two stars between two slashes.
  | innerDirs
  | oneOf (negated : Bool) (ranges : List (Char × Char))
  | alternates (branches : List Shape)
  deriving DecidableEq, Repr

def bytesOf (c : Char) : List UInt8 := (String.ofList [c]).toUTF8.toList

def rangeBytes (range : Char × Char) : List (UInt8 × UInt8) :=
  let singles := fun (bs : List UInt8) => bs.map fun b => (b, b)
  let lo := bytesOf range.1
  let hi := bytesOf range.2
  if range.1 = range.2 then singles lo
  else match lo.getLast?, hi with
    | some a, b :: rest => singles lo.dropLast ++ (a, b) :: singles rest
    | _, _ => []

def Token.shape (o : Options) : Token → Shape
  | literal c => .concat ((bytesOf c).map fun b => .byte (.single b))
  | anyByte => .byte (if o.separateDirs then .noSlash else .any)
  | anyBytes => .many (if o.separateDirs then .noSlash else .any)
  | leadingDirs => .alt (.alt .slash .empty) (.seq (.many .any) .slash)
  | trailing => .seq .slash (.many .any)
  | innerDirs => .alt .slash (.concat [.slash, .many .any, .slash])
  | oneOf negated ranges => .byte ⟨negated, ranges.flatMap rangeBytes⟩
  /- An empty alternative does not count. -/
  | alternates branches => .choice (branches.filter (· ≠ .empty))

def shapeOf (o : Options) (tokens : List Token) : Shape :=
  .concat ((tokens.map (·.shape o)).filter (· ≠ .empty))

structure OpenClass where
  negated : Bool
  ranges : List (Char × Char) := []
  inRange : Bool := false

def OpenClass.add (k : OpenClass) (c : Char) : Except Fault OpenClass :=
  match k.inRange, k.ranges with
  | true, (lo, _) :: rest =>
    if c < lo then .error (.invalidRange lo c)
    else .ok { k with ranges := (lo, c) :: rest, inRange := false }
  | _, ranges => .ok { k with ranges := (c, c) :: ranges, inRange := false }

def OpenClass.close (k : OpenClass) : Token :=
  .oneOf k.negated (if k.inRange then ('-', '-') :: k.ranges else k.ranges).reverse

def readClass (k : OpenClass) (taken : Nat) : List Char → Except Fault (Token × Nat)
  | [] => .error .unclosedClass
  | ']' :: rest =>
    if k.ranges.isEmpty then (k.add ']').bind (readClass · (taken + 1) rest)
    else .ok (k.close, taken + 1)
  | '-' :: rest =>
    if k.ranges.isEmpty || k.inRange then (k.add '-').bind (readClass · (taken + 1) rest)
    else readClass { k with inRange := true } (taken + 1) rest
  | c :: rest => (k.add c).bind (readClass · (taken + 1) rest)

def classAfter (text : List Char) : Except Fault (Token × Nat) :=
  match text with
  | '!' :: rest | '^' :: rest => readClass ⟨true, [], false⟩ 1 rest
  | _ => readClass ⟨false, [], false⟩ 0 text

structure Branch where
  tokens : List Token := []
  done : List Shape := []

/-- What `**` stands for, with the number of characters it takes after its second star. -/
def doubleStar (b : Branch) (inBraces : Bool) (before : Option Char) (after : List Char) :
    Branch × Nat :=
  let plain := ({ b with tokens := .anyBytes :: .anyBytes :: b.tokens }, 0)
  let atEnd :=
    after.isEmpty || (inBraces && (after.head? == some ',' || after.head? == some '\x7d'))
  match b.tokens with
  | [] =>
    match after with
    | [] => ({ b with tokens := [.leadingDirs] }, 0)
    | '/' :: _ => ({ b with tokens := [.leadingDirs] }, 1)
    | _ => plain
  | last :: tokens =>
    if before != some '/' && !(inBraces && (before == some ',' || before == some '\x7b')) then plain
    else if atEnd || after.head? == some '/' then
      let token := match last with
        | .leadingDirs => .leadingDirs
        | .trailing => .trailing
        | _ => if atEnd then .trailing else .innerDirs
      ({ b with tokens := token :: tokens }, if atEnd then 0 else 1)
    else plain

def Branch.shape (o : Options) (b : Branch) : Shape := shapeOf o b.tokens.reverse

/-- Reads on in branch `b`; the branches around it are in `outer`, innermost first. The next `skip`
characters have been taken already, and `before` is the character before the text. Once a bracket
has stood for itself, `plain`, all later ones do. -/
def readFrom (o : Options) (b : Branch) (outer : List Branch) (skip : Nat) (plain : Bool)
    (before : Option Char) : List Char → Except Fault (List Token)
  | [] => if outer.isEmpty then .ok b.tokens.reverse else .error .unclosedAlternates
  | c :: rest =>
    let push (t : Token) : Branch := { b with tokens := t :: b.tokens }
    match skip with
    | skip + 1 => readFrom o b outer skip plain (some c) rest
    | 0 =>
      match c with
      | '?' => readFrom o (push .anyByte) outer 0 plain (some c) rest
      | '*' =>
        match rest with
        | '*' :: after =>
          let (b, taken) := doubleStar b (!outer.isEmpty) before after
          readFrom o b outer (taken + 1) plain (some c) rest
        | _ => readFrom o (push .anyBytes) outer 0 plain (some c) rest
      | '[' =>
        if plain then readFrom o (push (.literal c)) outer 0 plain (some c) rest
        else match classAfter rest with
          | .ok (token, taken) => readFrom o (push token) outer taken plain (some c) rest
          | .error .unclosedClass =>
            if o.literalBracket then readFrom o (push (.literal c)) outer 0 true (some c) rest
            else .error .unclosedClass
          | .error e => .error e
      | '\x7b' => readFrom o {} (b :: outer) 0 plain (some c) rest
      | '\x7d' =>
        match outer with
        | [] => .error .unopenedAlternates
        | around :: outer =>
          let token := .alternates (b.shape o :: b.done).reverse
          readFrom o { around with tokens := token :: around.tokens } outer 0 plain (some c) rest
      | ',' =>
        if outer.isEmpty then readFrom o (push (.literal c)) outer 0 plain (some c) rest
        else readFrom o ⟨[], b.shape o :: b.done⟩ outer 0 plain (some c) rest
      | '\\' =>
        match rest with
        | [] => .error .danglingEscape
        | d :: _ => readFrom o (push (.literal d)) outer 1 plain (some c) rest
      | c => readFrom o (push (.literal c)) outer 0 plain (some c) rest

def compile (o : Options) (glob : String) : Except Fault Shape :=
  (readFrom o {} [] 0 false none glob.toList).map fun
    | [.leadingDirs] => .many .any
    | tokens => shapeOf o tokens

def Shape.acceptsPath (p : Shape) (path : String) : Bool := p.accepts path.toUTF8.toList

end Snapshot.Glob

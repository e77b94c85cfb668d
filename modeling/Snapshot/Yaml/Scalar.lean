/-!
# YAML scalars

A text is written as it stands if it can then be read back as the same text. Otherwise it is put in
single quotes, in double quotes with escapes, or, when it has several lines, in a literal block. A
text that reads as a null, a truth value or a number is always quoted. Lines are never folded.
-/

namespace Snapshot.Yaml

def digitValue? (radix : Nat) (c : Char) : Option Nat :=
  let n :=
    if c.isDigit then c.toNat - 48
    else if 'a' ≤ c && c ≤ 'z' then c.toNat - 87
    else if 'A' ≤ c && c ≤ 'Z' then c.toNat - 55
    else radix
  if n < radix then some n else none

def natural? (radix : Nat) (digits : List Char) : Option Nat :=
  if digits.isEmpty then none
  else digits.foldlM (fun n c => (digitValue? radix c).map (n * radix + ·)) 0

def radixOf? : Char → Option Nat
  | 'x' => some 16
  | 'o' => some 8
  | 'b' => some 2
  | _ => none

/-- A whole number with a mark for its radix; it fits into 128 bits, signed if it is negative. -/
def isRadixInteger (s : List Char) : Bool :=
  match s with
  | '-' :: '0' :: mark :: digits => fits mark digits (Nat.pow 2 127 + 1)
  | '+' :: '0' :: mark :: digits | '0' :: mark :: digits => fits mark digits (Nat.pow 2 128)
  | _ => false
where
  fits (mark : Char) (digits : List Char) (bound : Nat) : Bool :=
    match (radixOf? mark).bind (natural? · digits) with
    | some n => decide (n < bound)
    | none => false

def isZeroPadded (s : List Char) : Bool :=
  match (match s with | '-' :: r | '+' :: r => r | r => r) with
  | '0' :: c :: rest => (c :: rest).all Char.isDigit
  | _ => false

def exponent? : List Char → Option Int
  | '-' :: ds => (natural? 10 ds).map fun n => -(n : Int)
  | '+' :: ds | ds => (natural? 10 ds).map Int.ofNat

def decimal? (s : List Char) : Option (List Char × Int) := do
  let whole := s.takeWhile Char.isDigit
  let rest := s.dropWhile Char.isDigit
  let (part, rest) := match rest with
    | '.' :: r => (r.takeWhile Char.isDigit, r.dropWhile Char.isDigit)
    | r => ([], r)
  if whole.isEmpty && part.isEmpty then none
  let exponent ← match rest with
    | [] => some 0
    | 'e' :: r | 'E' :: r => exponent? r
    | _ => none
  return (whole ++ part, exponent - part.length)

def overflow : Nat := Nat.pow 2 1024 - Nat.pow 2 970

def isFinite (digits : List Char) (exponent : Int) : Bool :=
  let digits := digits.dropWhile (· == '0')
  let size := digits.length + exponent
  if digits.isEmpty || size < 300 then true
  else if 310 < size then false
  else match natural? 10 digits with
    | some n =>
      if 0 ≤ exponent then decide (n * Nat.pow 10 exponent.toNat < overflow)
      else decide (n < overflow * Nat.pow 10 (-exponent).toNat)
    | none => false

def isFloat (s : List Char) : Bool :=
  [".inf", ".Inf", ".INF", "+.inf", "+.Inf", "+.INF", "-.inf", "-.Inf", "-.INF",
    ".nan", ".NaN", ".NAN"].contains (String.ofList s) ||
  match decimal? (match s with | '-' :: r | '+' :: r => r | r => r) with
  | some (digits, exponent) => isFinite digits exponent
  | none => false

/-- Whether the bare text would be read as a null, a truth value or a number, or as digits that
older readers take for a number. -/
def isAmbiguous (s : List Char) : Bool :=
  ["", "~", "null", "Null", "NULL", "true", "True", "TRUE", "false", "False",
    "FALSE"].contains (String.ofList s) ||
  isRadixInteger s || isZeroPadded s || isFloat s

def isBreak (c : Char) : Bool :=
  c == '\n' || c == '\r' || c == '\u0085' || c == '\u2028' || c == '\u2029'

def isBlankOrBreak (c : Char) : Bool := c == ' ' || c == '\t' || c == '\x00' || isBreak c

def isPrintable (c : Char) : Bool :=
  let n := c.toNat
  n == 0x0A || (0x20 ≤ n && n ≤ 0x7E) || (0xA0 ≤ n && n != 0xFEFF && n != 0xFFFE && n != 0xFFFF)

def isLeadingMark (c : Char) : Bool :=
  ['#', ',', '[', ']', '\x7b', '\x7d', '&', '*', '!', '|', '>', '\'', '"', '%', '@',
    '\x60'].contains c

def endsToken : List Char → Bool
  | [] => true
  | c :: _ => isBlankOrBreak c

/-- A colon that ends a token or a hash that begins one, after the character `before`. -/
def hasInnerMark (before : Char) : List Char → Bool
  | [] => false
  | c :: rest =>
    (c == ':' && endsToken rest) || (c == '#' && isBlankOrBreak before) || hasInnerMark c rest

def hasMark : List Char → Bool
  | '-' :: '-' :: '-' :: _ | '.' :: '.' :: '.' :: _ => true
  | [] => false
  | c :: rest =>
    isLeadingMark c || ((c == '?' || c == ':' || c == '-') && endsToken rest) ||
      hasInnerMark c rest

def spaceAfter (p : Char → Bool) : List Char → Bool
  | a :: b :: rest => (p a && b == ' ') || spaceAfter p (b :: rest)
  | _ => false

def spaceBefore (p : Char → Bool) : List Char → Bool
  | a :: b :: rest => (a == ' ' && p b) || spaceBefore p (b :: rest)
  | _ => false

inductive Style
  | plain
  | singleQuoted
  | doubleQuoted
  | literal
  deriving DecidableEq, Repr

def needsEscapes (s : List Char) : Bool := s.any (!isPrintable ·) || spaceBefore isBreak s

def allowsPlain (s : List Char) : Bool :=
  !(s.any isBreak || needsEscapes s || hasMark s || s.head? == some ' ' || s.getLast? == some ' ')

def style (s : List Char) : Style :=
  if s.contains '\n' then
    if needsEscapes s || s.getLast? == some ' ' then .doubleQuoted else .literal
  else if !isAmbiguous s && allowsPlain s then .plain
  else if needsEscapes s || spaceAfter isBreak s then .doubleQuoted
  else .singleQuoted

def hexDigits : Nat → Nat → List Char
  | 0, _ => []
  | k + 1, n =>
    let d := n % 16
    hexDigits k (n / 16) ++ [Char.ofNat (if d < 10 then 48 + d else 55 + d)]

def escapeLetter? : Char → Option Char
  | '\x00' => some '0'
  | '\x07' => some 'a'
  | '\x08' => some 'b'
  | '\t' => some 't'
  | '\n' => some 'n'
  | '\x0b' => some 'v'
  | '\x0c' => some 'f'
  | '\r' => some 'r'
  | '\x1b' => some 'e'
  | '"' => some '"'
  | '\\' => some '\\'
  | '\u0085' => some 'N'
  | '\u2028' => some 'L'
  | '\u2029' => some 'P'
  | _ => none

def escapeChar (c : Char) : List Char :=
  match escapeLetter? c with
  | some letter => ['\\', letter]
  | none =>
    if isPrintable c then [c]
    else if c.toNat ≤ 0xFF then '\\' :: 'x' :: hexDigits 2 c.toNat
    else if c.toNat ≤ 0xFFFF then '\\' :: 'u' :: hexDigits 4 c.toNat
    else '\\' :: 'U' :: hexDigits 8 c.toNat

def indentLines (indent : Nat) (lineStart : Bool) : List Char → List Char
  | [] => []
  | c :: rest =>
    if isBreak c then c :: indentLines indent true rest
    else
      (if lineStart then List.replicate indent ' ' else []) ++ c :: indentLines indent false rest

def quoteSingle (indent : Nat) (s : List Char) : List Char :=
  let body := indentLines indent false (s.flatMap fun c => if c == '\'' then ['\'', '\''] else [c])
  let last := match s.getLast? with
    | some c => if isBreak c then List.replicate indent ' ' else []
    | none => []
  '\'' :: body ++ last ++ ['\'']

def quoteDouble (s : List Char) : List Char := '"' :: s.flatMap escapeChar ++ ['"']

/-- What a literal block says of its last line break: left out, kept alone, or kept with others. -/
def chomping (s : List Char) : List Char :=
  match s.reverse with
  | [] => ['-']
  | [c] => if isBreak c then ['+'] else ['-']
  | c :: d :: _ => if !isBreak c then ['-'] else if isBreak d then ['+'] else []

def literalHead (s : List Char) : List Char :=
  let depth := match s with
    | c :: _ => if c == ' ' || isBreak c then ['2'] else []
    | [] => []
  '|' :: depth ++ chomping s

def scalarLine (indent : Nat) (s : List Char) : List Char :=
  match style s with
  | .plain => s ++ ['\n']
  | .singleQuoted => quoteSingle indent s ++ ['\n']
  | .doubleQuoted => quoteDouble s ++ ['\n']
  | .literal =>
    let body := literalHead s ++ '\n' :: indentLines indent true s
    if s.getLast?.any isBreak then body else body ++ ['\n']

end Snapshot.Yaml

import Snapshot.Json
import Snapshot.Text.Hex

/-!
# Reading JSON

A text is read one character after another. Blanks are spaces, tabs and the characters that end a
line. Outside strings a run of letters, digits and signs is a number or one of three words. Arrays
and objects that are still open are kept on a stack, which holds 127 of them at most. In an object
the last value of a key counts.
-/

namespace Snapshot.Json

inductive Token
  | openBracket
  | closeBracket
  | openBrace
  | closeBrace
  | comma
  | colon
  | string (s : List Char)
  | bare (s : List Char)
  deriving DecidableEq, Repr

/-- What the characters so far have left open. Texts under way are kept newest character first. -/
inductive Lexeme
  | clear
  | bare (s : List Char)
  | string (s : List Char)
  | escape (s : List Char)
  -- The digits of a character's code, with the number still to come; `high` is the first half of
  -- the code if this is the second.
  | code (s : List Char) (high : Option Nat) (left value : Nat)
  -- The first half of a code, which the second has to follow; `slash` after the backslash.
  | half (s : List Char) (high : Nat) (slash : Bool)
  deriving DecidableEq, Repr

def isBareChar (c : Char) : Bool := c.isAlphanum || c == '+' || c == '-' || c == '.'

def escapeValue? : Char → Option Char
  | '"' => some '"'
  | '\\' => some '\\'
  | '/' => some '/'
  | 'b' => some '\x08'
  | 'f' => some '\x0c'
  | 'n' => some '\n'
  | 'r' => some '\r'
  | 't' => some '\t'
  | _ => none

def isHighHalf (n : Nat) : Bool := 0xD800 ≤ n && n < 0xDC00

def isLowHalf (n : Nat) : Bool := 0xDC00 ≤ n && n < 0xE000

def endCode (s : List Char) (value : Nat) : Option Nat → Option Lexeme
  | none =>
    if isHighHalf value then some (.half s value false)
    else if isLowHalf value then none
    else some (.string (Char.ofNat value :: s))
  | some high =>
    if isLowHalf value then
      some (.string (Char.ofNat (0x10000 + (high - 0xD800) * 0x400 + (value - 0xDC00)) :: s))
    else none

def start (c : Char) : Option (Lexeme × List Token) :=
  match c with
  | ' ' | '\t' | '\n' | '\r' => some (.clear, [])
  | '[' => some (.clear, [.openBracket])
  | ']' => some (.clear, [.closeBracket])
  | '\x7b' => some (.clear, [.openBrace])
  | '\x7d' => some (.clear, [.closeBrace])
  | ',' => some (.clear, [.comma])
  | ':' => some (.clear, [.colon])
  | '"' => some (.string [], [])
  | c => if isBareChar c then some (.bare [c], []) else none

/-- The next character: what it leaves open, and the tokens that it ends. -/
def Lexeme.next (lexeme : Lexeme) (c : Char) : Option (Lexeme × List Token) :=
  match lexeme with
  | .clear => start c
  | .bare s =>
    if isBareChar c then some (.bare (c :: s), [])
    else (start c).map fun (lexeme, ts) => (lexeme, .bare s.reverse :: ts)
  | .string s =>
    if c == '"' then some (.clear, [.string s.reverse])
    else if c == '\\' then some (.escape s, [])
    else if 0x20 ≤ c.toNat then some (.string (c :: s), [])
    else none
  | .escape s =>
    if c == 'u' then some (.code s none 4 0, [])
    else (escapeValue? c).map fun e => (.string (e :: s), [])
  | .code s high left value => do
    let value := value * 16 + (← Text.hexValue? c)
    if 1 < left then some (.code s high (left - 1) value, [])
    else (endCode s value high).map (·, [])
  | .half s high false => if c == '\\' then some (.half s high true, []) else none
  | .half s high true => if c == 'u' then some (.code s (some high) 4 0, []) else none

def Lexeme.finish? : Lexeme → Option (List Token)
  | .clear => some []
  | .bare s => some [.bare s.reverse]
  | _ => none

def afterDigits? : List Char → Option (List Char)
  | [] => none
  | c :: s => if c.isDigit then some (s.dropWhile Char.isDigit) else none

def afterWhole? : List Char → Option (List Char)
  | '0' :: s => some s
  | s => afterDigits? s

def afterFraction? : List Char → Option (List Char)
  | '.' :: s => afterDigits? s
  | s => some s

def afterSign : List Char → List Char
  | '+' :: s | '-' :: s => s
  | s => s

def afterExponent? : List Char → Option (List Char)
  | 'e' :: s | 'E' :: s => afterDigits? (afterSign s)
  | s => some s

def isNumber (s : List Char) : Bool :=
  let unsigned := match s with
    | '-' :: s => s
    | s => s
  (((afterWhole? unsigned).bind afterFraction?).bind afterExponent?) == some []

def ofBare? (s : List Char) : Option Json :=
  if s = "null".toList then some null
  else if s = "true".toList then some (bool true)
  else if s = "false".toList then some (bool false)
  else if isNumber s then some (number (String.ofList s))
  else none

inductive Frame
  | array (items : List Json)
  | object (members : List (String × Json)) (key : String)

inductive Reading
  | value (frames : List Frame)
  | item (frames : List Frame)
  -- A key of an object; `first` if the object may end instead.
  | key (frames : List Frame) (members : List (String × Json)) (first : Bool)
  | colon (frames : List Frame) (members : List (String × Json)) (key : String)
  | behind (frames : List Frame) (value : Json)

def maxDepth : Nat := 127

def addMember (members : List (String × Json)) (key : String) (value : Json) :
    List (String × Json) :=
  (key, value) :: members.filter (·.1 != key)

namespace Reading

def begin? (frames : List Frame) : Token → Option Reading
  | .string s => some (behind frames (.string (String.ofList s)))
  | .bare s => (ofBare? s).map (behind frames)
  | .openBracket => if frames.length < maxDepth then some (item frames) else none
  | .openBrace => if frames.length < maxDepth then some (key frames [] true) else none
  | _ => none

def next? : Reading → Token → Option Reading
  | value frames, t => begin? frames t
  | item frames, .closeBracket => some (behind frames (.array []))
  | item frames, t => begin? (.array [] :: frames) t
  | key frames members _, .string s => some (colon frames members (String.ofList s))
  | key frames _ true, .closeBrace => some (behind frames (.object []))
  | colon frames members k, .colon => some (value (.object members k :: frames))
  | behind (.array items :: frames) v, .comma => some (value (.array (v :: items) :: frames))
  | behind (.array items :: frames) v, .closeBracket =>
    some (behind frames (.array (v :: items).reverse))
  | behind (.object members k :: frames) v, .comma =>
    some (key frames (addMember members k v) false)
  | behind (.object members k :: frames) v, .closeBrace =>
    some (behind frames (.object (addMember members k v).reverse))
  | _, _ => none

def result? : Reading → Option Json
  | behind [] v => some v
  | _ => none

end Reading

def readFrom (lexeme : Lexeme) (r : Reading) : List Char → Option Json
  | [] => do (← (← lexeme.finish?).foldlM Reading.next? r).result?
  | c :: s => do
    let (lexeme, ts) ← lexeme.next c
    readFrom lexeme (← ts.foldlM Reading.next? r) s

def read? (s : List Char) : Option Json := readFrom .clear (.value []) s

end Snapshot.Json

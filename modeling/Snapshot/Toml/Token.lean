import Snapshot.Text.Hex

/-!
# TOML tokens

The characters of a TOML text, taken one after another, are put together into tokens. Strings come
out with their escapes resolved; comments leave nothing. A configuration has no use for numbers and
dates, and what is written without quotes is a run of letters, digits, `_` and `-`.
-/

namespace Snapshot.Toml

inductive Token
  | blank
  | newline
  | equals
  | dot
  | comma
  | openBracket
  | closeBracket
  | openBrace
  | closeBrace
  | bare (s : List Char)
  | line (s : List Char)
  | block (s : List Char)
  deriving DecidableEq, Repr

inductive Quote
  | basic
  | literal
  deriving DecidableEq, Repr

def Quote.mark : Quote → Char
  | basic => '"'
  | literal => '\''

inductive Lexeme
  | clear
  | bare (s : List Char)
  | comment
  | carriage
  | opening (q : Quote) (second : Bool)
  | line (q : Quote) (s : List Char)
  -- A string of several lines that now ends in `marks` quotation marks; `fresh` at its start.
  | block (q : Quote) (s : List Char) (marks : Nat) (fresh : Bool)
  | blockCarriage (q : Quote) (s : List Char) (fresh : Bool)
  | escape (wide : Bool) (s : List Char)
  | code (wide : Bool) (s : List Char) (left value : Nat)
  -- Blanks after a backslash, which take in the end of the line and all blanks after it.
  | gap (s : List Char) (ended : Bool)
  | gapCarriage (s : List Char)
  deriving DecidableEq, Repr

def isBareChar (c : Char) : Bool := c.isAlphanum || c == '_' || c == '-'

def isTextChar (c : Char) : Bool := c == '\t' || (0x20 ≤ c.toNat && c.toNat != 0x7F)

def escapeValue? : Char → Option Char
  | 'b' => some '\x08'
  | 't' => some '\t'
  | 'n' => some '\n'
  | 'f' => some '\x0c'
  | 'r' => some '\r'
  | '"' => some '"'
  | '\\' => some '\\'
  | _ => none

def start (c : Char) : Option (Lexeme × List Token) :=
  match c with
  | ' ' | '\t' => some (.clear, [.blank])
  | '\n' => some (.clear, [.newline])
  | '\r' => some (.carriage, [])
  | '#' => some (.comment, [])
  | '=' => some (.clear, [.equals])
  | '.' => some (.clear, [.dot])
  | ',' => some (.clear, [.comma])
  | '[' => some (.clear, [.openBracket])
  | ']' => some (.clear, [.closeBracket])
  | '\x7b' => some (.clear, [.openBrace])
  | '\x7d' => some (.clear, [.closeBrace])
  | '"' => some (.opening .basic false, [])
  | '\'' => some (.opening .literal false, [])
  | c => if isBareChar c then some (.bare [c], []) else none

/-- A character after a token that it does not belong to. -/
def startAfter (t : Token) (c : Char) : Option (Lexeme × List Token) :=
  (start c).map fun (lexeme, ts) => (lexeme, t :: ts)

def inLine (q : Quote) (s : List Char) (c : Char) : Option (Lexeme × List Token) :=
  if c == q.mark then some (.clear, [.line s.reverse])
  else if q = .basic && c == '\\' then some (.escape false s, [])
  else if isTextChar c then some (.line q (c :: s), [])
  else none

def inBlock (q : Quote) (s : List Char) (fresh : Bool) (c : Char) : Option (Lexeme × List Token) :=
  if c == q.mark then some (.block q s 1 false, [])
  else if q = .basic && c == '\\' then some (.escape true s, [])
  else if c == '\n' then some (.block q (if fresh then s else '\n' :: s) 0 false, [])
  else if c == '\r' then some (.blockCarriage q s fresh, [])
  else if isTextChar c then some (.block q (c :: s) 0 false, [])
  else none

def back (wide : Bool) (s : List Char) : Lexeme :=
  if wide then .block .basic s 0 false else .line .basic s

/-- The next character: what it leaves open, and the tokens that it ends. -/
def Lexeme.next (lexeme : Lexeme) (c : Char) : Option (Lexeme × List Token) :=
  match lexeme with
  | .clear => start c
  | .bare s => if isBareChar c then some (.bare (c :: s), []) else startAfter (.bare s.reverse) c
  | .comment =>
    if c == '\n' then some (.clear, [.newline])
    else if c == '\r' then some (.carriage, [])
    else if isTextChar c then some (.comment, [])
    else none
  | .carriage => if c == '\n' then some (.clear, [.newline]) else none
  | .opening q false => if c == q.mark then some (.opening q true, []) else inLine q [] c
  | .opening q true =>
    if c == q.mark then some (.block q [] 0 true, []) else startAfter (.line []) c
  | .line q s => inLine q s c
  | .block q s 0 fresh => inBlock q s fresh c
  | .block q s marks _ =>
    if c == q.mark then
      if marks = 4 then some (.clear, [.block (q.mark :: q.mark :: s).reverse])
      else some (.block q s (marks + 1) false, [])
    else if 3 ≤ marks then startAfter (.block (List.replicate (marks - 3) q.mark ++ s).reverse) c
    else inBlock q (List.replicate marks q.mark ++ s) false c
  | .blockCarriage q s fresh => if c == '\n' then inBlock q s fresh c else none
  | .escape wide s =>
    match escapeValue? c with
    | some e => some (back wide (e :: s), [])
    | none =>
      if c == 'u' then some (.code wide s 4 0, [])
      else if c == 'U' then some (.code wide s 8 0, [])
      else if wide && (c == ' ' || c == '\t') then some (.gap s false, [])
      else if wide && c == '\n' then some (.gap s true, [])
      else if wide && c == '\r' then some (.gapCarriage s, [])
      else none
  | .code wide s left value => do
    let value := value * 16 + (← Text.hexValue? c)
    if 1 < left then some (.code wide s (left - 1) value, [])
    else if value.isValidChar then some (back wide (Char.ofNat value :: s), [])
    else none
  | .gap s ended =>
    if c == ' ' || c == '\t' then some (.gap s ended, [])
    else if c == '\n' then some (.gap s true, [])
    else if c == '\r' then some (.gapCarriage s, [])
    else if ended then inBlock .basic s false c
    else none
  | .gapCarriage s => if c == '\n' then some (.gap s true, []) else none

def Lexeme.finish? : Lexeme → Option (List Token)
  | .clear | .comment => some []
  | .bare s => some [.bare s.reverse]
  | .opening _ true => some [.line []]
  | .block q s marks _ =>
    if 3 ≤ marks then some [.block (List.replicate (marks - 3) q.mark ++ s).reverse] else none
  | _ => none

def tokensFrom? (lexeme : Lexeme) : List Char → Option (List Token)
  | [] => lexeme.finish?
  | c :: rest => do
    let (lexeme, ts) ← lexeme.next c
    return ts ++ (← tokensFrom? lexeme rest)

def tokens? : List Char → Option (List Token)
  | '\ufeff' :: rest => tokensFrom? .clear rest
  | text => tokensFrom? .clear text

end Snapshot.Toml

import Snapshot.Toml.Table
import Snapshot.Toml.Token

/-!
# TOML documents

The tokens of a document, taken one after another, build its table. Arrays and tables in braces
that are still open are kept on a stack. Lines may end inside an array, and not inside braces.
-/

namespace Snapshot.Toml

structure Key where
  path : List String
  last : String
  deriving DecidableEq, Repr

def Key.ofParts? : List String → Option Key
  | [] => none
  | last :: path => some ⟨path.reverse, last⟩

inductive Use
  | pair
  | header
  | tables
  | member
  deriving DecidableEq, Repr

inductive Frame
  | pair (key : Key)
  | array (items : List Value)
  | braces (entries : Entries)
  | member (entries : Entries) (key : Key)

inductive Place
  | lineStart
  | lineEnd
  | bracket
  | closing
  -- In a key with these parts, newest first; `wanted` if a part has to follow.
  | key (use : Use) (parts : List String) (wanted : Bool)
  | value
  | item
  | firstMember
  | afterValue
  deriving DecidableEq, Repr

structure Builder where
  root : Entries := []
  current : List String := []
  frames : List Frame := []
  place : Place := .lineStart

namespace Builder

def complete (b : Builder) (v : Value) : Option Builder :=
  match b.frames with
  | .pair key :: frames => do
    let root ← b.root.addUnder b.current key.path key.last v
    return { b with root, frames, place := .lineEnd }
  | .array items :: frames =>
    some { b with frames := .array (v :: items) :: frames, place := .afterValue }
  | .member es key :: frames => do
    let es ← es.addDotted key.path key.last v
    return { b with frames := .braces es :: frames, place := .afterValue }
  | _ => none

def endKey (b : Builder) (use : Use) (parts : List String) : Option Builder := do
  let key ← Key.ofParts? parts
  match use, b.frames with
  | .pair, frames => some { b with frames := .pair key :: frames, place := .value }
  | .member, .braces es :: frames =>
    some { b with frames := .member es key :: frames, place := .value }
  | .header, _ => do
    let root ← b.root.addHeader key.path key.last
    return { b with root, current := key.path ++ [key.last], place := .lineEnd }
  | .tables, _ => do
    let root ← b.root.addToTables key.path key.last
    return { b with root, current := key.path ++ [key.last], place := .lineEnd }
  | _, _ => none

def closeArray (b : Builder) : Option Builder :=
  match b.frames with
  | .array items :: frames => { b with frames }.complete (.array items.reverse)
  | _ => none

def closeBraces (b : Builder) : Option Builder :=
  match b.frames with
  | .braces es :: frames => { b with frames }.complete (.table .braces es)
  | _ => none

def inArray (b : Builder) : Bool :=
  match b.frames with
  | .array _ :: _ => true
  | _ => false

def beginKey (b : Builder) (use : Use) : Token → Option Builder
  | .bare s | .line s => some { b with place := .key use [String.ofList s] false }
  | _ => none

def beginValue (b : Builder) : Token → Option Builder
  | .line s | .block s => b.complete (.string (String.ofList s))
  | .bare s =>
    if s = "true".toList then b.complete (.boolean true)
    else if s = "false".toList then b.complete (.boolean false)
    else none
  | .openBracket => some { b with frames := .array [] :: b.frames, place := .item }
  | .openBrace => some { b with frames := .braces [] :: b.frames, place := .firstMember }
  | .newline => if b.inArray then some b else none
  | _ => none

def next (b : Builder) (t : Token) : Option Builder :=
  match b.place, t with
  | .bracket, .blank => some { b with place := .key .header [] true }
  | .closing, .closeBracket => some { b with place := .lineEnd }
  | .closing, _ => none
  | _, .blank => some b
  | .lineStart, .newline => some b
  | .lineStart, .openBracket => some { b with place := .bracket }
  | .lineStart, t => b.beginKey .pair t
  | .lineEnd, .newline => some { b with place := .lineStart }
  | .lineEnd, _ => none
  | .bracket, .openBracket => some { b with place := .key .tables [] true }
  | .bracket, t => b.beginKey .header t
  | .key use parts true, .bare s | .key use parts true, .line s =>
    some { b with place := .key use (String.ofList s :: parts) false }
  | .key use parts false, .dot => some { b with place := .key use parts true }
  | .key .pair parts false, .equals => b.endKey .pair parts
  | .key .member parts false, .equals => b.endKey .member parts
  | .key .header parts false, .closeBracket => b.endKey .header parts
  | .key .tables parts false, .closeBracket =>
    (b.endKey .tables parts).map ({ · with place := .closing })
  | .key .., _ => none
  | .value, .newline => none
  | .value, t => b.beginValue t
  | .item, .closeBracket => b.closeArray
  | .item, t => b.beginValue t
  | .firstMember, .closeBrace => b.closeBraces
  | .firstMember, t => b.beginKey .member t
  | .afterValue, .comma =>
    some { b with place := if b.inArray then .item else .key .member [] true }
  | .afterValue, .closeBracket => b.closeArray
  | .afterValue, .closeBrace => b.closeBraces
  | .afterValue, .newline => if b.inArray then some b else none
  | .afterValue, _ => none

def finish? (b : Builder) : Option Entries :=
  match b.place with
  | .lineStart | .lineEnd => some b.root
  | _ => none

end Builder

def read? (text : List Char) : Option Entries := do
  let b ← (← tokens? text).foldlM Builder.next {}
  b.finish?

end Snapshot.Toml

/-!
# TOML tables

A table keeps its entries in the order in which they were made, and remembers how it came to be: a
header names each table once, and keys with dots only add to tables that such keys made.
-/

namespace Snapshot.Toml

inductive Origin
  -- Named on the way to a table further down.
  | passed
  | header
  | dotted
  -- Written in braces, and complete.
  | braces
  deriving DecidableEq, Repr

inductive Value
  | string (s : String)
  | boolean (b : Bool)
  | array (items : List Value)
  | table (origin : Origin) (entries : List (String × Value))
  -- The tables under a header in double brackets, newest first.
  | tables (newest : List (String × Value)) (older : List (List (String × Value)))
  deriving Inhabited

abbrev Entries := List (String × Value)

namespace Entries

def replace (key : String) (v : Value) : Entries → Entries
  | [] => []
  | (k, w) :: rest => if k = key then (k, v) :: rest else (k, w) :: replace key v rest

def insert? (key : String) (v : Value) (es : Entries) : Option Entries :=
  match es.lookup key with
  | none => some (es ++ [(key, v)])
  | some _ => none

/-- Changes the table at the end of a path, making the tables on the way that are missing. -/
def updateAt (made : Origin) (change : Origin → Entries → Option Entries) :
    Origin → List String → Entries → Option Entries
  | origin, [], es => change origin es
  | _, key :: path, es =>
    match es.lookup key with
    | none => do
      let sub ← updateAt made change made path []
      return es ++ [(key, .table made sub)]
    | some (.table origin sub) =>
      if origin = .braces || (made = .dotted && origin = .header) then none
      else do
        let sub ← updateAt made change origin path sub
        return es.replace key (.table origin sub)
    | some (.tables newest older) => do
      let newest ← updateAt made change .header path newest
      return es.replace key (.tables newest older)
    | some _ => none

def addDotted (path : List String) (key : String) (v : Value) (es : Entries) : Option Entries :=
  updateAt .dotted (fun origin es =>
    if origin = .dotted || path.isEmpty then es.insert? key v else none) .header path es

def addHeader (path : List String) (key : String) (es : Entries) : Option Entries :=
  updateAt .passed (fun _ es =>
    match es.lookup key with
    | none => some (es ++ [(key, .table .header [])])
    | some (.table .passed sub) => some (es.replace key (.table .header sub))
    | some _ => none) .header path es

def addToTables (path : List String) (key : String) (es : Entries) : Option Entries :=
  updateAt .passed (fun _ es =>
    match es.lookup key with
    | none => some (es ++ [(key, .tables [] [])])
    | some (.tables newest older) => some (es.replace key (.tables [] (newest :: older)))
    | some _ => none) .header path es

def addUnder (current path : List String) (key : String) (v : Value) (es : Entries) :
    Option Entries :=
  updateAt .passed (fun _ es => es.addDotted path key v) .header current es

end Entries

end Snapshot.Toml

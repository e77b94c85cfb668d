import Snapshot.Disk.Listing
import Snapshot.Path

/-!
# Disks

A disk is a tree of directories together with the current one. A path is resolved one step after
another: `..` leaves a directory, and a link is replaced by its target, at most forty times. The
limits of a disk say what the system refuses: to read what stands at a place, to open it for
writing, or to store more than some bytes there. A file that is written is emptied before, so if
there is no room for its new content, the old one is gone.
-/

namespace Snapshot

inductive DiskFault
  | notFound
  | alreadyThere
  | notDirectory
  | isDirectory
  | tooManyLinks
  | invalidText
  | permissionDenied
  | nameTooLong
  | noSpace
  | other (text : String)
  deriving DecidableEq, Repr

def DiskFault.message : DiskFault → String
  | notFound => "No such file or directory (os error 2)"
  | alreadyThere => "File exists (os error 17)"
  | notDirectory => "Not a directory (os error 20)"
  | isDirectory => "Is a directory (os error 21)"
  | tooManyLinks => "Too many levels of symbolic links (os error 40)"
  | invalidText => "stream did not contain valid UTF-8"
  | permissionDenied => "Permission denied (os error 13)"
  | nameTooLong => "File name too long (os error 36)"
  | noSpace => "No space left on device (os error 28)"
  | other text => text

/-- What the system refuses at a place, which is told by the names on the way to it. -/
structure Limits where
  reading : List String → Option DiskFault := fun _ => none
  writing : List String → Option DiskFault := fun _ => none
  room : List String → Option (Nat × DiskFault) := fun _ => none

namespace Limits

/-- What is stored of a content at a place, and whether that is all of it. -/
def kept (l : Limits) (place : List String) (content : ByteArray) :
    ByteArray × Except DiskFault Unit :=
  match l.room place with
  | some (n, fault) =>
    if n < content.size then (content.extract 0 n, .error fault) else (content, .ok ())
  | none => (content, .ok ())

end Limits

def Listing.devices : Listing := .dir "dev" (.sink "null" .nil) .nil

theorem Listing.wellFormed_devices : devices.WellFormed :=
  ⟨by decide, by decide, ⟨by decide, by decide, trivial⟩, trivial⟩

structure Disk where
  root : Listing := .devices
  wellFormed : root.WellFormed := by first | trivial | exact Listing.wellFormed_devices
  current : List String := []
  limits : Limits := {}

inductive Target
  | found (path : List String) (node : Node)
  | missing (dir : List String) (name : String)

def Node.content? : Node → Option ByteArray
  | file content => some content
  | sink => some .empty
  | link _ | dir _ => none

def Target.place : Target → List String
  | found path _ => path
  | missing dir name => dir ++ [name]

/-- The steps of a path. A slash at its end is a last step that has to be made in a directory. -/
def Path.steps (path : String) : List String :=
  (Path.pieces path).filter (· != "") ++ if path.toList.getLast? == some '/' then ["."] else []

def Path.isAbsolute (path : String) : Bool := path.toList.head? == some '/'

def Path.absolute (names : List String) : String := "/" ++ "/".intercalate names

namespace Disk

/-- Makes the steps of a path, starting from the place `here`. With `follow` a link at the end is
followed too. -/
def resolve (d : Disk) (follow : Bool) (links : Nat) (here : List String) :
    List String → Except DiskFault Target
  | [] =>
    match d.root.node? here with
    | some node => .ok (.found here node)
    | none => .error .notFound
  | step :: rest =>
    match d.root.node? here with
    | some (.dir entries) =>
      if step = "." then d.resolve follow links here rest
      else if step = ".." then d.resolve follow links here.dropLast rest
      else match entries.find? step with
        | none => if rest.isEmpty then .ok (.missing here step) else .error .notFound
        | some (.link target) =>
          if rest.isEmpty && !follow then .ok (.found (here ++ [step]) (.link target))
          else match links with
            | 0 => .error .tooManyLinks
            | links + 1 =>
              if target.isEmpty then .error .notFound
              else d.resolve follow links (if Path.isAbsolute target then [] else here)
                (Path.steps target ++ rest)
        | some _ => d.resolve follow links (here ++ [step]) rest
    | _ => .error .notDirectory
termination_by steps => (links, steps.length)

def lookup (d : Disk) (path : String) (follow : Bool := true) : Except DiskFault Target :=
  if path.isEmpty then .error .notFound
  else d.resolve follow 40 (if Path.isAbsolute path then [] else d.current) (Path.steps path)

def entry (d : Disk) (path : String) (follow : Bool := true) :
    Except DiskFault (List String × Node) := do
  match ← d.lookup path follow with
  | .found place node => return (place, node)
  | .missing .. => .error .notFound

def node (d : Disk) (path : String) (follow : Bool := true) : Except DiskFault Node :=
  (d.entry path follow).map (·.2)

def isFile (d : Disk) (path : String) : Bool :=
  match d.node path with
  | .ok (.file _) => true
  | _ => false

def isThere (d : Disk) (path : String) : Bool :=
  match d.node path with
  | .ok _ => true
  | .error _ => false

def read (d : Disk) (path : String) : Except DiskFault ByteArray := do
  let (place, node) ← d.entry path
  match d.limits.reading place, node.content? with
  | some fault, _ => .error fault
  | none, some content => return content
  | none, none => .error .isDirectory

def readText (d : Disk) (path : String) : Except DiskFault String := do
  match String.fromUTF8? (← d.read path) with
  | some text => return text
  | none => .error .invalidText

def canonical (d : Disk) (path : String) : Except DiskFault String :=
  (d.entry path).map fun (place, _) => Path.absolute place

def put (d : Disk) (dir : List String) (name : String) (node : Node) (h : node.WellFormed) : Disk :=
  if valid : ValidName name then
    { d with
      root := d.root.changeAt (·.put name node) dir
      wellFormed := Listing.WellFormed.changeAt (fun _ hes => hes.put valid h) dir d.wellFormed }
  else d

def erase (d : Disk) (dir : List String) (name : String) : Disk :=
  { d with
    root := d.root.changeAt (·.erase name) dir
    wellFormed := Listing.WellFormed.changeAt (fun _ hes => hes.erase) dir d.wellFormed }

def openAt (d : Disk) (path : String) : Except DiskFault Target := do
  let target ← d.lookup path
  match target with
  | .found _ (.dir _) => .error .isDirectory
  | _ =>
    match d.limits.writing target.place with
    | some fault => .error fault
    | none => return target

def store (d : Disk) (place : List String) (content : ByteArray) : Disk × Except DiskFault Unit :=
  match place.getLast? with
  | none => (d, .error .isDirectory)
  | some name =>
    let (stored, result) := d.limits.kept place content
    (d.put place.dropLast name (.file stored) trivial, result)

/-- Opens a file, or makes it, and stores a content in it. The disk is given back in any case. -/
def overwrite (d : Disk) (path : String) (content : ByteArray) : Disk × Except DiskFault Unit :=
  match d.openAt path with
  | .error fault => (d, .error fault)
  | .ok (.found _ .sink) => (d, .ok ())
  | .ok target => d.store target.place content

def write (d : Disk) (path : String) (content : ByteArray) : Except DiskFault Disk :=
  match d.overwrite path content with
  | (d, .ok ()) => .ok d
  | (_, .error fault) => .error fault

def makeSteps (d : Disk) (here : List String) (steps : List String) : Except DiskFault Disk :=
  (List.range steps.length).foldlM (fun d n => do
    match ← d.resolve true 40 here (steps.take (n + 1)) with
    | .found _ (.dir _) => return d
    | .found .. => .error .alreadyThere
    | .missing dir name => return d.put dir name (.dir .nil) trivial) d

def startOf (d : Disk) (path : String) : List String :=
  if Path.isAbsolute path then [] else d.current

def makeDirs (d : Disk) (path : String) : Except DiskFault Disk :=
  d.makeSteps (d.startOf path) (Path.steps path)

def makeParents (d : Disk) (path : String) : Except DiskFault Disk :=
  d.makeSteps (d.startOf path) (Path.steps path).dropLast

def makeLink (d : Disk) (path target : String) : Except DiskFault Disk := do
  match ← d.lookup path false with
  | .found .. => .error .alreadyThere
  | .missing dir name => return d.put dir name (.link target) trivial

def remove (d : Disk) (path : String) : Except DiskFault Disk := do
  match ← d.lookup path false with
  | .found names _ =>
    match names.getLast? with
    | some name => return d.erase names.dropLast name
    | none => .error .alreadyThere
  | .missing .. => .error .notFound

def enter (d : Disk) (path : String) : Except DiskFault Disk := do
  match ← d.lookup path with
  | .found names (.dir _) => return { d with current := names }
  | .found .. => .error .notDirectory
  | .missing .. => .error .notFound

end Disk

end Snapshot

import LintRelay.IoError
import LintRelay.Path
/-! A file system as a value. Every entry has its place, the names that lead to it from the root;
there are no links, so a place has one spelling. There are no permissions, no pipes and no full disks
either: a file is there to be read and replaced and keeps what is written, and a name in a directory is
refused only for what it is. A device keeps nothing and is read as empty. Which stream a descriptor
leads to is left open, so what is written to its device is lost here. -/
namespace LintRelay

inductive Device where
  | null
  | zero
  /-- Takes nothing, for lack of space. -/
  | full
  /-- Leads to where the descriptor of the process that opens it leads. -/
  | descriptor (fd : Nat)
  deriving DecidableEq, Repr

inductive Entry where
  | directory
  | file (data : Bytes)
  | device (d : Device)
  | program (name : String)
  deriving DecidableEq, Repr

/-- The names from the root to an entry. -/
abbrev Location := List Bytes

structure FileSystem where
  entries : List (Location × Entry)
  deriving DecidableEq, Repr

/-- What a path leads to: an entry, or a free name in a directory that exists. -/
inductive Target where
  | found (place : Location) (entry : Entry)
  | free (place : Location)
  deriving DecidableEq, Repr

namespace FileSystem

def get? (fs : FileSystem) (place : Location) : Option Entry :=
  if place.isEmpty then some .directory
  else (fs.entries.find? fun e => e.1 == place).map (·.2)

def put (fs : FileSystem) (place : Location) (entry : Entry) : FileSystem :=
  if fs.entries.any fun e => e.1 == place then
    ⟨fs.entries.map fun e => if e.1 == place then (place, entry) else e⟩
  else ⟨fs.entries ++ [(place, entry)]⟩

def erase (fs : FileSystem) (place : Location) : FileSystem :=
  ⟨fs.entries.filter fun e => !place.isPrefixOf e.1⟩

def maxName : Nat := 255

def maxPath : Nat := 4096

/-- Follows names from a directory. Only a directory can be passed through. -/
def walk (fs : FileSystem) (here : Location) : List Bytes → Except IoError Target
  | [] => .ok (.found here .directory)
  | name :: rest =>
    if Path.isIdle name then fs.walk here rest
    else if Path.isParentName name then fs.walk here.dropLast rest
    else if maxName < name.length then .error .nameTooLong
    else
      let place := here ++ [name]
      match fs.get? place with
      | some .directory => fs.walk place rest
      | some entry => if rest.isEmpty then .ok (.found place entry) else .error .notDirectory
      | none => if rest.isEmpty then .ok (.free place) else .error .noEntry

def checkPath (p : Path) : Except IoError Unit :=
  if p.isEmpty then .error .noEntry
  else if p.bytes.contains 0 then .error .nulInPath
  else if maxPath ≤ p.bytes.length then .error .nameTooLong
  else .ok ()

def resolve (fs : FileSystem) (cwd : Location) (p : Path) : Except IoError Target := do
  checkPath p
  fs.walk (if p.isAbsolute then [] else cwd) (Path.pieces p.bytes)

def entry? (fs : FileSystem) (cwd : Location) (p : Path) : Option Entry :=
  match fs.resolve cwd p with
  | .ok (.found _ entry) => some entry
  | _ => none

def isFile (fs : FileSystem) (cwd : Location) (p : Path) : Bool :=
  match fs.entry? cwd p with
  | some (.file _) => true
  | some (.program _) => true
  | _ => false

def pathExists (fs : FileSystem) (cwd : Location) (p : Path) : Bool := (fs.entry? cwd p).isSome

def read (fs : FileSystem) (cwd : Location) (p : Path) : Except IoError Bytes := do
  match ← fs.resolve cwd p with
  | .found _ (.file data) => return data
  | .found _ .directory => throw .isDirectory
  | .found _ _ => return []
  | .free _ => throw .noEntry

def leading (p : Path) : Path :=
  ⟨((p.bytes.reverse.dropWhile (· == Path.slash)).dropWhile (· != Path.slash)).reverse⟩

/-- What a path names that a file may be created at. A name that ends in a slash can only be a
directory, and is not looked at. -/
def resolveNew (fs : FileSystem) (cwd : Location) (p : Path) : Except IoError Target := do
  checkPath p
  if p.bytes.getLast? == some Path.slash then
    if !(leading p).isEmpty then let _ ← fs.resolve cwd (leading p)
    throw .isDirectory
  fs.resolve cwd p

def write (fs : FileSystem) (cwd : Location) (p : Path) (data : Bytes) :
    Except IoError FileSystem := do
  match ← fs.resolveNew cwd p with
  | .found _ .directory => throw .isDirectory
  | .found place (.file _) => return fs.put place (.file data)
  | .found _ (.device .full) => if data.isEmpty then return fs else throw .noSpace
  | .found _ (.device _) => return fs
  | .found _ (.program _) => throw .accessDenied
  | .free place => return fs.put place (.file data)

def makeDirectories (fs : FileSystem) (here : Location) : List Bytes → FileSystem
  | [] => fs
  | name :: rest =>
    if Path.isIdle name then fs.makeDirectories here rest
    else if Path.isParentName name then fs.makeDirectories here.dropLast rest
    else
      let place := here ++ [name]
      match fs.get? place with
      | some _ => fs.makeDirectories place rest
      | none => (fs.put place .directory).makeDirectories place rest

def makeDirectory (fs : FileSystem) (cwd : Location) (p : Path) : FileSystem :=
  fs.makeDirectories (if p.isAbsolute then [] else cwd) (Path.pieces p.bytes)

def writeWithParents (fs : FileSystem) (cwd : Location) (p : Path) (data : Bytes) :
    Except IoError FileSystem :=
  match p.parent? with
  | some dir => (fs.makeDirectory cwd dir).write cwd p data
  | none => fs.write cwd p data

def removePath (fs : FileSystem) (cwd : Location) (p : Path) : FileSystem :=
  match fs.resolve cwd p with
  | .ok (.found place _) => fs.erase place
  | _ => fs

/-- The order of byte strings: byte by byte, a shorter one before what continues it. -/
def nameLe : Bytes → Bytes → Bool
  | [], _ => true
  | _ :: _, [] => false
  | a :: as, b :: bs => if a == b then nameLe as bs else a < b

/-- The order of places: name by name, so that a directory comes right before its content. -/
def placeLe : Location → Location → Bool
  | [], _ => true
  | _ :: _, [] => false
  | a :: as, b :: bs => if a == b then placeLe as bs else nameLe a b

def listing (fs : FileSystem) (dir : Location) : List (Location × Entry) :=
  let below := fs.entries.filterMap fun (place, entry) =>
    if dir.isPrefixOf place && dir.length < place.length then some (place.drop dir.length, entry)
    else none
  below.mergeSort fun a b => placeLe a.1 b.1

def namesIn (fs : FileSystem) (dir : Location) : List Bytes :=
  fs.entries.filterMap fun (place, _) =>
    if dir.isPrefixOf place && place.length == dir.length + 1 then place.getLast? else none

end FileSystem

def Location.path (place : Location) : Path :=
  if place.isEmpty then ⟨[Path.slash]⟩ else ⟨Path.slash :: Path.joinPieces place⟩

def Location.relativePath (place : Location) : Path := ⟨Path.joinPieces place⟩

end LintRelay

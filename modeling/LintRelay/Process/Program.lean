import LintRelay.FileSystem
import LintRelay.Process.Octets
/-! Programs as what they ask the system for. A program is a tree: each node is a call, and the
reply to the call chooses the branch that the program goes on with. Programs are written in a monad,
`Proc`, whose actions take what comes after them as an argument. -/
namespace LintRelay.Process

structure OpenMode where
  reads : Bool := false
  writes : Bool := false
  creates : Bool := false
  truncates : Bool := false
  appends : Bool := false
  /-- Whether the file must not be there yet. -/
  fresh : Bool := false
  deriving DecidableEq, Repr

inductive FileKind where
  | regular
  | directory
  | character
  | pipe
  deriving DecidableEq, Repr

structure FileInfo where
  kind : FileKind
  /-- What distinguishes the file from all others. -/
  identity : Location
  size : Nat := 0
  executable : Bool := false
  /-- When the file was changed, in nanoseconds since 1970. -/
  changed : Int := 0
  deriving DecidableEq, Repr

inductive Ending where
  | exited (code : Nat)
  | killed (signal : Nat)
  deriving DecidableEq, Repr

inductive SignalAction where
  | usual
  | ignore
  /-- The signal is kept until the process asks for it. -/
  | catch
  deriving DecidableEq, Repr

inductive Resource where
  | time
  | fileSize
  | data
  | stack
  | core
  | memory
  | locked
  | processes
  | descriptors
  | space
  | locks
  | priority
  deriving DecidableEq, Repr

/-- A limit that holds, and the one up to which a process may raise it. -/
structure Limit where
  soft : Option Nat := none
  hard : Option Nat := none
  deriving DecidableEq, Repr

inductive Call where
  | read (fd count : Nat)
  /-- Reads what there is, up to and with a given character. -/
  | readThrough (fd : Nat) (last : Char)
  | write (fd : Nat) (data : Octets)
  /-- Goes on or back in a file. -/
  | move (fd : Nat) (distance : Int)
  | openFile (path : Octets) (mode : OpenMode)
  | close (fd : Nat)
  /-- Makes a descriptor lead to where another one leads. -/
  | copy (fd target : Nat)
  /-- A second descriptor, not below a given one, that no other program gets. -/
  | keep (fd least : Nat)
  | pipe
  | info (path : Octets)
  | infoOf (fd : Nat)
  | offset (fd : Nat)
  | list (path : Octets)
  | enter (path : Octets)
  | place
  | self
  /-- Becomes another program. -/
  | become (path : Octets) (args env : List Octets)
  /-- A child that has ended; with `hang` the process waits for one, and with `alert` a signal that
  is kept ends the waiting. -/
  | wait (hang alert : Bool)
  | signal (target : Int) (number : Nat)
  | onSignal (number : Nat) (action : SignalAction)
  /-- The signals that were kept. -/
  | kept
  /-- The signals that are ignored. -/
  | ignored
  | sleep (nanos : Nat)
  /-- Computes for a while. -/
  | spend (nanos : Nat)
  /-- Sets the time at which a file was changed, to now if none is given. -/
  | stamp (path : Octets) (time : Option Int)
  /-- The time, in nanoseconds since 1970. -/
  | now
  /-- Sets which permissions new files do not get; those that they did not get before. -/
  | mask (new : Option Nat)
  | limit (r : Resource)
  | setLimit (r : Resource) (l : Limit)
  deriving DecidableEq, Repr

inductive Reply where
  | done
  | failed (e : IoError)
  | number (n : Nat)
  | numbers (m n : Nat)
  | data (text : Octets)
  | info (i : FileInfo)
  | names (list : List Octets)
  | place (l : Location)
  | ended (id : Nat) (how : Ending)
  | program (name : String)
  | signals (list : List Nat)
  | time (t : Int)
  | limit (l : Limit)
  deriving DecidableEq, Repr

inductive Program where
  | exit (code : Nat)
  | call (c : Call) (next : Reply → Program)
  /-- Starts another process; the number that it gets chooses the branch. -/
  | fork (child : Program) (next : Nat → Program)

/-- A part of a program, given all that comes after it. -/
def Proc (α : Type) : Type := (α → Program) → Program

instance : Monad Proc where
  pure a := fun next => next a
  bind m f := fun next => m fun a => f a next

instance : LawfulMonad Proc :=
  LawfulMonad.mk' Proc (fun _ => rfl) (fun _ _ => rfl) (fun _ _ _ => rfl)

namespace Proc

def call (c : Call) : Proc Reply := fun next => .call c next

def exit {α : Type} (code : Nat) : Proc α := fun _ => .exit code

/-- A whole program from a part that ends with an exit code. -/
def program (body : Proc Nat) : Program := body .exit

def fork (child : Proc Nat) : Proc Nat := fun next => .fork child.program next

/-- A call whose only answer is whether it went well. -/
def attempt (c : Call) : Proc (Except IoError Unit) := do
  match ← call c with
  | .failed e => return .error e
  | _ => return .ok ()

def read (fd count : Nat) : Proc (Except IoError Octets) := do
  match ← call (.read fd count) with
  | .data text => return .ok text
  | .failed e => return .error e
  | _ => return .ok []

def readThrough (fd : Nat) (last : Char) : Proc (Except IoError Octets) := do
  match ← call (.readThrough fd last) with
  | .data text => return .ok text
  | .failed e => return .error e
  | _ => return .ok []

def write (fd : Nat) (data : Octets) : Proc (Except IoError Unit) :=
  if data.isEmpty then return .ok () else attempt (.write fd data)

def numbered (c : Call) : Proc (Except IoError Nat) := do
  match ← call c with
  | .number n => return .ok n
  | .failed e => return .error e
  | _ => return .error .badArgument

def openFile (path : Octets) (mode : OpenMode) : Proc (Except IoError Nat) :=
  numbered (.openFile path mode)

def close (fd : Nat) : Proc Unit := do
  let _ ← call (.close fd)

def infoFrom (c : Call) : Proc (Except IoError FileInfo) := do
  match ← call c with
  | .info i => return .ok i
  | .failed e => return .error e
  | _ => return .error .badArgument

def info (path : Octets) : Proc (Except IoError FileInfo) := infoFrom (.info path)

def infoOf (fd : Nat) : Proc (Except IoError FileInfo) := infoFrom (.infoOf fd)

def self : Proc (Nat × Nat) := do
  match ← call .self with
  | .numbers id parent => return (id, parent)
  | _ => return (0, 0)

def now : Proc Int := do
  match ← call .now with
  | .time t => return t
  | _ => return 0

def readAll (fd : Nat) : (steps : Nat) → Proc (Except IoError (List Octets))
  | 0 => return .ok []
  | steps + 1 => do
    match ← read fd 65536 with
    | .error e => return .error e
    | .ok [] => return .ok []
    | .ok text =>
      match ← readAll fd steps with
      | .error e => return .error e
      | .ok more => return .ok (text :: more)

end Proc
end LintRelay.Process

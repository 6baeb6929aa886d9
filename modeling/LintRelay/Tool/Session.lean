import LintRelay.Process.Program
import LintRelay.Tool.Options
import LintRelay.Tool.Quote
/-! What tools have in common: how they print, how they complain and how they end. What a tool
prints is collected, and written when it has become much, before a complaint and at the end. What
could not be written is lost, and the tool complains about that when it ends. -/
namespace LintRelay.Tool

open Process

structure Session where
  /-- The name under which the tool was called. -/
  name : Octets
  /-- The variables of the environment, each with a sign of equality before its value. -/
  env : List Octets := []
  /-- What is not written yet, latest piece first. -/
  pending : List Octets := []
  size : Nat := 0
  /-- Whether anything was printed so far. -/
  started : Bool := false
  /-- Whether writing has failed. -/
  failed : Bool := false
  /-- Whether a complaint could not be written. -/
  isUnheard : Bool := false
  status : Nat := 0

/-- What a tool does. It may end early with an exit code. -/
abbrev Use (α : Type) := ExceptT Nat (StateT Session Proc) α

def bufferSize : Nat := 4096

namespace Use

def proc {α : Type} (p : Proc α) : Use α := liftM (m := StateT Session Proc) (liftM p)

def call (c : Call) : Use Reply := proc (Proc.call c)

/-- Writes a text; why that failed, if it did. -/
def put (text : Octets) : Use (Option IoError) := do
  match ← proc (Proc.write 1 text) with
  | .ok _ => return none
  | .error e =>
    modify fun s => { s with failed := true }
    return some e

def flush : Use (Option IoError) := do
  let s ← get
  set { s with pending := [], size := 0 }
  put s.pending.reverse.flatten

def collect (text : Octets) : Use Unit :=
  modify fun s => { s with pending := text :: s.pending, size := s.size + text.length }

/-- Prints a text; why that failed, if it did. What is collected is written when there is no room for
more, and of a long text whole blocks are written at once. -/
def tryToSay (text : Octets) : Use (Option IoError) := do
  let s ← get
  let room := if s.started then bufferSize - s.size else 0
  if text.length ≤ room then
    collect text
    return none
  set { s with started := true }
  collect (text.take room)
  if let some e ← flush then return some e
  let rest := text.drop room
  let blocks := rest.length - rest.length % bufferSize
  if let some e ← put (rest.take blocks) then return some e
  collect (rest.drop blocks)
  return none

def say (text : Octets) : Use Unit := do
  let _ ← tryToSay text

def exit {α : Type} (code : Nat) : Use α := throw code

def report (text : Octets) : Use Unit := do
  let _ ← flush
  if (← proc (Proc.write 2 text)) matches .error _ then
    modify fun s => { s with isUnheard := true }

def complain (text : Octets) : Use Unit := do
  let s ← get
  report (s.name ++ ": ".toList ++ text ++ ['\n'])

/-- Complains, and the tool will end with 1. -/
def blame (text : Octets) : Use Unit := do
  complain text
  modify fun s => { s with status := 1 }

def blameFor (text : Octets) (e : IoError) : Use Unit :=
  blame (text ++ ": ".toList ++ Octets.ofString e.reason)

def die {α : Type} (text : Octets) (code : Nat := 1) : Use α := do
  complain text
  exit code

/-- Points to the help text, and ends. -/
def advise {α : Type} (code : Nat := 1) : Use α := do
  let s ← get
  report ("Try '".toList ++ s.name ++ " --help' for more information.\n".toList)
  exit code

/-- Complains about how the tool was called, and ends. -/
def misuse {α : Type} (text : Octets) (code : Nat := 1) : Use α := do
  complain text
  advise code

/-- The end of a tool: what is collected is written, and it is told if not all could be written. The
reason is that for which closing has failed. -/
def close (code : Nat) : Use Nat := do
  let before := (← get).failed
  let closing ←
    match ← flush with
    | some e => pure (some e)
    | none =>
      match ← call (.infoOf 1) with
      | .failed e => pure (some e)
      | _ => pure none
  if !(← get).failed then return code
  let reason :=
    match closing with
    | some e => ": ".toList ++ Octets.ofString e.reason
    | none => []
  if before || closing.isSome then complain ("write error".toList ++ reason)
  return 1

def environment? (name : String) : Use (Option Octets) := do
  let front := name.toList ++ ['=']
  return ((← get).env.find? fun e => front.isPrefixOf e).map fun e => e.drop front.length

/-- Whether the tool is to do what the standard says, where it would do otherwise. -/
def isStandard : Use Bool := do return (← environment? "POSIXLY_CORRECT").isSome

def arguments {α : Type} [DecidableEq α] (o : Options α) (args : List Octets) :
    Use (Arguments α) := do
  return o.read (← isStandard) args

/-- Runs a tool under a name and with an environment. If a complaint was not heard then the tool
ends with 1. -/
def run (name : Octets) (env : List Octets) (body : Use Unit) : Proc Nat := do
  let (result, s) ← (ExceptT.run body).run { name, env }
  let code :=
    match result with
    | .ok _ => s.status
    | .error code => code
  let (result, s) ← (ExceptT.run (close code)).run s
  if s.isUnheard then return 1
  match result with
  | .ok code => return code
  | .error code => return code

def eachPiece {σ : Type} (fd size : Nat) (f : σ → Octets → Use σ) :
    (steps : Nat) → σ → Use (Option IoError × σ)
  | 0, s => return (none, s)
  | steps + 1, s => do
    match ← proc (Proc.read fd size) with
    | .error e => return (some e, s)
    | .ok [] => return (none, s)
    | .ok text => eachPiece fd size f steps (← f s text)

end Use

def maxPieces : Nat := 1000000000

end LintRelay.Tool

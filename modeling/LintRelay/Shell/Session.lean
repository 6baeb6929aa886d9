import LintRelay.Format.Numeral
import LintRelay.Process.Program
import LintRelay.Shell.State
/-! What a running shell does step by step: it remembers and forgets, asks the system for something,
prints, complains, starts copies of itself and waits for them. -/
namespace LintRelay.Shell

open Process Format

/-- Why the shell leaves all that it is in. -/
inductive Stop where
  /-- Something was wrong. -/
  | error
  /-- The shell was told to end. -/
  | exit
  /-- All that there was to do is done. -/
  | finished
  deriving DecidableEq, Repr

abbrev Sh (α : Type) := ExceptT Stop (StateT State Proc) α

namespace Sh

def proc {α : Type} (p : Proc α) : Sh α := liftM (m := StateT State Proc) (liftM p)

def call (c : Call) : Sh Reply := proc (Proc.call c)

/-- Does something; what stopped it is given back. -/
def caught {α : Type} (body : Sh α) : Sh (Except Stop α) :=
  ExceptT.mk (do return .ok (← ExceptT.run body))

/-- Goes on as if something had been the last step. -/
def rethrow {α : Type} (result : Except Stop α) : Sh α := ExceptT.mk (pure result)

def stepTime : Nat := 4000

def tick : Sh Unit := do
  let _ ← call (.spend stepTime)

def flush : Sh Unit := do
  let s ← get
  if s.output.isEmpty then return
  set { s with output := [], outputSize := 0 }
  match ← proc (Proc.write 1 s.output.reverse.flatten) with
  | .ok _ => return
  | .error _ => modify fun s => { s with outputFailed := true }

def bufferSize : Nat := 8192

def print (text : Octets) : Sh Unit := do
  let s ← get
  if bufferSize < s.outputSize + text.length then flush
  modify fun s =>
    { s with output := text :: s.output, outputSize := s.outputSize + text.length }

def printText (text : String) : Sh Unit := print (Octets.ofString text)

def report (text : Octets) : Sh Unit := do
  let _ ← proc (Proc.write 2 text)

/-- A complaint with the place that it comes from. -/
def complain (text : Octets) : Sh Unit := do
  let s ← get
  let command :=
    match s.command with
    | some c => c ++ ": ".toList
    | none => []
  report (s.name ++ ": ".toList ++ Octets.ofNat s.line ++ ": ".toList ++ command ++ text ++ ['\n'])

def warn (text : String) : Sh Unit := complain (Octets.ofString text)

def fail {α : Type} (text : Octets) : Sh α := do
  modify fun s => { s with status := 2 }
  complain text
  flush
  throw .error

def failText {α : Type} (text : String) : Sh α := fail (Octets.ofString text)

def failFor {α : Type} (what : Octets) (text : String) : Sh α :=
  fail (what ++ ": ".toList ++ Octets.ofString text)

def illegalNumber {α : Type} (text : Octets) : Sh α := fail ("Illegal number: ".toList ++ text)

/-- A fault in the script, at the line up to which it has been read. -/
def syntaxError {α : Type} (line : Nat) (message : String) : Sh α := do
  modify fun s => { s with line }
  failText ("Syntax error: " ++ message)

def number (text : Octets) : Sh Nat := do
  let n := Numeral.read (some 10) text
  let value := n.signed.1
  if !n.found || value < 0 || Int.pow 2 31 ≤ value || !(n.rest.dropWhile isBlank).isEmpty then
    illegalNumber text
  return value.toNat

/-- Sets a variable, unless it must not be changed. The name ends before an equals sign. -/
def assign (name value : Octets) (exported : Bool := false) : Sh Unit := do
  let s ← get
  let name := name.takeWhile (· != '=')
  if !isName name then failFor name "bad variable name"
  if s.isReadonly name then failFor name "is read only"
  if name == "OPTIND".toList then
    let _ ← number value
  modify fun s => s.assign name value exported

def kill (signal : Nat) : Sh Unit := do
  let (id, _) ← proc Proc.self
  let _ ← call (.signal id signal)

def manyReads : Nat := 1000000000

/-- Starts a copy of the shell, which ends with the status that its work gives. -/
def fork (child : Sh Nat) : Sh Nat := do
  let s ← get
  let body : Proc Nat := do
    let (result, _) ← (ExceptT.run child).run s
    match result with
    | .ok code => return code
    | .error _ => return 2
  proc (Proc.fork body)

end Sh
end LintRelay.Shell

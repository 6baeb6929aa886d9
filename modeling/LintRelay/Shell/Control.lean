import LintRelay.Shell.Builtin.Directory
import LintRelay.Shell.Builtin.Names
import LintRelay.Shell.Builtin.Output
import LintRelay.Shell.Builtin.Processes
import LintRelay.Shell.Builtin.Test
import LintRelay.Shell.Work
/-! The commands that a shell carries out itself: those that change where it goes on, and a table of
all others. -/
namespace LintRelay.Shell

open Process Builtin

/-- Leaves loops, or goes on with their next round. -/
def leaveLoops (skip : Skip) (args : List Octets) : Sh Nat := do
  let n ←
    match args with
    | [] => pure 1
    | a :: _ =>
      let n ← Sh.number a
      if n == 0 then Sh.illegalNumber a
      pure n
  let s ← get
  let n := min n s.loops
  if 0 < n then set { s with skip, skipCount := n }
  return 0

def returnFrom (args : List Octets) : Sh Nat := do
  match args with
  | [] =>
    modify fun s => { s with skip := .functionAsIs }
    return (← get).status
  | a :: _ =>
    let n ← Sh.number a
    modify fun s => { s with skip := .function }
    return n

def exitShell (args : List Octets) : Sh Nat := do
  match args with
  | [] => throw .exit
  | a :: _ =>
    let n ← Sh.number a
    modify fun s => { s with exitStatus := some n }
    throw .exit

def execute (args : List Octets) : Sh Nat := do
  match args with
  | [] => return 0
  | words => Lookup.become words (Lookup.pathOf (← get))

def findScript (name : Octets) : List Octets → Sh Octets
  | [] => Sh.failFor name "not found"
  | d :: rest => do
    let full := within d name
    match ← Sh.proc (Proc.info full) with
    | .ok i => if i.kind == .regular then return full else findScript name rest
    | .error _ => findScript name rest

def readScript (path : Octets) : Sh Octets := do
  match ← Sh.proc (Proc.openFile path { reads := true }) with
  | .error e => Redirection.cannotOpen path e
  | .ok fd =>
    let pieces ← Sh.proc (Proc.readAll fd Sh.manyReads)
    let _ ← Sh.call (.close fd)
    match pieces with
    | .ok pieces => return pieces.flatten.filter (· != '\x00')
    | .error _ => return []

def includeFile (perform : Perform) (args : List Octets) : Sh Nat := do
  match ← operands args with
  | [] => return 0
  | name :: _ =>
    let path ←
      if name.contains '/' then pure name
      else findScript name (directories (Lookup.pathOf (← get)))
    let text ← readScript path
    modify fun s => { s with command := some path }
    perform (.lines { Script.ofText text with isFile := true } false 0)

/-- How deeply texts can be evaluated inside each other before the shell breaks down. -/
def maxTexts : Nat := 9000

def evaluate (perform : Perform) (words : List Octets) (m : Manner) : Sh Nat := do
  let depth := (← get).textDepth
  if maxTexts ≤ depth then Sh.kill 11
  modify fun s => { s with textDepth := depth + 1 }
  let status ← Sh.caught (evalText perform (Octets.join [' '] words) m.tested)
  modify fun s => { s with textDepth := depth }
  Sh.rethrow status

def carryOut (perform : Perform) (name : String) (args : List Octets) (m : Manner) : Sh Nat :=
  match name with
  | ":" | "true" => return 0
  | "false" => return 1
  | "." => includeFile perform args
  | "[" => bracket args
  | "alias" => Builtin.setAliases args
  | "bg" | "fg" => resume args
  | "break" => leaveLoops .toEnd args
  | "cd" | "chdir" => changeDirectory args
  | "command" => describeCommand args
  | "continue" => leaveLoops .toNext args
  | "echo" => echo args
  | "eval" =>
    if args.isEmpty then return 0 else evaluate perform args m
  | "exec" => execute args
  | "exit" => exitShell args
  | "export" => exportVariables args
  | "getopts" => getopts args
  | "hash" => hash args
  | "jobs" => jobs args
  | "kill" => kill args
  | "local" => localVariables args
  | "printf" => printf args
  | "pwd" => printDirectory args
  | "read" => read args
  | "readonly" => protectVariables args
  | "return" => returnFrom args
  | "set" => setCommand args
  | "shift" => shift args
  | "test" => test args
  | "times" => times
  | "trap" => trap args
  | "type" => type args
  | "ulimit" => ulimit args
  | "umask" => changeMask args
  | "unalias" => unalias args
  | "unset" => unset args
  | "wait" => wait args
  | _ => return 127

end LintRelay.Shell

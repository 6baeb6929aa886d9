import LintRelay.Process.Program
import LintRelay.Shell.Syntax
/-! What a shell remembers: variables, functions, options, what it was told to do on signals, the
processes that it has started, and how far it is in what it does. -/
namespace LintRelay.Shell

open Process

structure Variable where
  /-- A variable may be known before it has a value. -/
  value : Option Octets
  exported : Bool := false
  readonly : Bool := false
  deriving DecidableEq, Repr

inductive Flag where
  | errexit
  | noglob
  | ignoreeof
  | interactive
  | monitor
  | noexec
  | stdin
  | xtrace
  | verbose
  | vi
  | emacs
  | noclobber
  | allexport
  | notify
  | nounset
  | privileged
  | nolog
  | debug
  deriving DecidableEq, Repr

def flagTable : List (Flag × String × Option Char) :=
  [(.errexit, "errexit", some 'e'), (.noglob, "noglob", some 'f'),
    (.ignoreeof, "ignoreeof", some 'I'), (.interactive, "interactive", some 'i'),
    (.monitor, "monitor", some 'm'), (.noexec, "noexec", some 'n'), (.stdin, "stdin", some 's'),
    (.xtrace, "xtrace", some 'x'), (.verbose, "verbose", some 'v'), (.vi, "vi", some 'V'),
    (.emacs, "emacs", some 'E'), (.noclobber, "noclobber", some 'C'),
    (.allexport, "allexport", some 'a'), (.notify, "notify", some 'b'),
    (.nounset, "nounset", some 'u'), (.privileged, "privileged", some 'p'),
    (.nolog, "nolog", none), (.debug, "debug", none)]

/-- What the shell leaves out until it is where it has to go on. -/
inductive Skip where
  | nothing
  /-- Up to the end of a loop. -/
  | toEnd
  /-- Up to the next round of a loop. -/
  | toNext
  /-- Up to the end of a function or a file, with a status of its own. -/
  | function
  /-- The same, with the status that there was. -/
  | functionAsIs
  deriving DecidableEq, Repr

/-- What was started together, with how each process has ended. -/
structure Job where
  number : Nat
  processes : List (Nat × Option Ending) := []
  text : Octets := []
  waited : Bool := false

namespace Job

def isRunning (j : Job) : Bool := j.processes.any fun p => p.2.isNone

end Job

/-- Variables as they were before a command got its own. -/
structure Frame where
  bindings : List (Octets × Option Variable) := []
  flags : Option (List Flag) := none

/-- Descriptors as they were before a command got its own; nothing for one that was closed. -/
abbrev SavedFds := List (Nat × Option Nat)

structure State where
  /-- The name of the shell. -/
  name : Octets
  args : List Octets := []
  /-- Where the reading of options stands: the next argument, and how far it is in the last one. Zero
  stands for a reading that has failed. -/
  optionIndex : Nat := 1
  optionOffset : Option Nat := none
  bindings : List (Octets × Variable) := []
  functions : List (Octets × Command) := []
  /-- Programs that were found before, with their paths. -/
  hashed : List (Octets × Octets) := []
  aliases : List (Octets × Octets) := []
  flags : List Flag := []
  status : Nat := 0
  /-- The status to end with, if it is not the last one. -/
  exitStatus : Option Nat := none
  /-- The status of the last command inside a word. -/
  captured : Nat := 0
  lastBackground : Nat := 0
  id : Nat := 0
  traps : List (Nat × Octets) := []
  /-- Signals that have come and whose actions are still to be run. -/
  pending : List Nat := []
  /-- Signals that were ignored from the start, and always are. -/
  immune : List Nat := []
  skip : Skip := .nothing
  skipCount : Nat := 0
  loops : Nat := 0
  /-- How many functions the shell is in, and how many texts that it evaluates. -/
  functionDepth : Nat := 0
  textDepth : Nat := 0
  /-- The command whose work is being done, for messages. -/
  command : Option Octets := none
  line : Nat := 0
  /-- The line up to which the script has been read. -/
  readLine : Nat := 1
  /-- The same for the script that the shell is there for, if it is not a text. -/
  mainLine : Nat := 1
  /-- What is printed but not written yet, latest piece first. -/
  output : List Octets := []
  outputSize : Nat := 0
  outputFailed : Bool := false
  jobs : List Job := []
  frames : List Frame := []
  savedFds : List SavedFds := []
  directory : Octets := []
  /-- The texts that commands read from inside the script. -/
  documents : Array Document := #[]
  /-- Whether this is a copy of another shell. -/
  isChild : Bool := false
  /-- Whether the text before a traced command is being worked out. -/
  tracing : Bool := false
  /-- The descriptor for traces and messages of a command whose own are redirected. -/
  traceFd : Nat := 2
  /-- What runs another program. -/
  launch : String → List Octets → List Octets → Proc Nat

namespace State

def has (s : State) (f : Flag) : Bool := s.flags.contains f

def setFlag (s : State) (f : Flag) (on : Bool) : State :=
  let rest := s.flags.filter (· != f)
  { s with flags := if on then f :: rest else rest }

def find? (s : State) (name : Octets) : Option Variable := s.bindings.lookup name

def value? (s : State) (name : Octets) : Option Octets := do
  (← s.find? name).value

def text? (s : State) (name : String) : Option Octets := s.value? name.toList

def putVariable (s : State) (name : Octets) (v : Variable) : State :=
  if s.bindings.any fun e => e.1 == name then
    { s with bindings := s.bindings.map fun e => if e.1 == name then (name, v) else e }
  else { s with bindings := s.bindings ++ [(name, v)] }

def dropVariable (s : State) (name : Octets) : State :=
  { s with bindings := s.bindings.filter fun e => e.1 != name }

/-- What else changes with a variable. With another path all programs are looked for anew, and
setting the index of options starts their reading anew. -/
def afterChange (s : State) (name : Octets) : State :=
  if name == "PATH".toList then { s with hashed := [] }
  else if name == "OPTIND".toList then
    let index := (s.value? name).bind fun v => (String.ofList v).toNat?
    { s with optionIndex := max (index.getD 1) 1, optionOffset := none }
  else s

def isReadonly (s : State) (name : Octets) : Bool := (s.find? name).any (·.readonly)

/-- A variable gets a value, and keeps what else is known about it. -/
def assign (s : State) (name value : Octets) (exported : Bool := false) : State :=
  let old := (s.find? name).getD ⟨none, false, false⟩
  (s.putVariable name
    { old with value := some value, exported := old.exported || exported || s.has .allexport }
    ).afterChange name

def environment (s : State) : List Octets :=
  s.bindings.filterMap fun (name, v) =>
    if v.exported then v.value.map fun value => name ++ '=' :: value else none

def separators (s : State) : Octets := (s.text? "IFS").getD " \t\n".toList

def flagLetters (s : State) : Octets :=
  flagTable.reverse.filterMap fun (f, _, letter) => if s.has f then letter else none

/-- Whether somebody talks to the shell, so that it goes on after errors. -/
def isAttended (s : State) : Bool := s.has .interactive && !s.isChild

def trap? (s : State) (signal : Nat) : Option Octets := s.traps.lookup signal

def setTrap (s : State) (signal : Nat) (action : Option Octets) : State :=
  let rest := s.traps.filter fun t => t.1 != signal
  { s with traps := match action with | some a => (signal, a) :: rest | none => rest }

end State
end LintRelay.Shell

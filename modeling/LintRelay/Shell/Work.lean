import LintRelay.Shell.Parser
import LintRelay.Shell.Redirection
/-! What a shell does in turn. Commands contain commands, and what runs them is handed down as an
argument; so each kind of command can be stated by itself. -/
namespace LintRelay.Shell

open Process

structure Manner where
  /-- Whether something else looks at the status, so that it is not the end of a strict script. -/
  tested : Bool := false
  /-- Whether the shell ends with the command. -/
  last : Bool := false
  deriving DecidableEq, Repr

structure Script where
  reader : Reader
  /-- The descriptor with the rest of the script. -/
  fd : Option Nat := none
  /-- Whether the script is a file, which a command can leave. -/
  isFile : Bool := false
  /-- Whether the script is what the shell is there for. One that somebody talks to asks for each
  line of it. -/
  isMain : Bool := false

/-- Something to do; a status comes out of it. -/
inductive Work where
  | run (c : Option Command) (m : Manner)
  /-- The lines of a script, with the status that they have given so far. -/
  | lines (script : Script) (tested : Bool) (status : Nat)
  /-- The rounds of a loop. -/
  | rounds (success : Bool) (test body : Command) (tested : Bool) (status : Nat)
  /-- The rounds of a loop over values. -/
  | values (name : Octets) (values : List Octets) (body : Command) (tested : Bool) (status : Nat)

abbrev Perform := Work → Sh Nat

def Script.ofText (text : Octets) : Script := { reader := { sources := [{ text }] } }

def evalText (perform : Perform) (text : Octets) (tested : Bool) : Sh Nat :=
  perform (.lines (.ofText text) tested 0)

/-- Runs the actions for the signals that have come, in their order, until one leaves what the shell
is in. The status is not touched by them. -/
def trapActions (perform : Perform) (status : Nat) : List Nat → Sh Unit
  | [] => return
  | signal :: rest => do
    if (← get).skip != .nothing then return
    modify fun s => { s with pending := s.pending.filter (· != signal) }
    match (← get).trap? signal with
    | none =>
      if signal == 2 && (← get).isAttended then
        modify fun s => { s with status := 130 }
        Sh.report ['\n']
        throw .error
      trapActions perform status rest
    | some action =>
      let _ ← evalText perform action false
      if (← get).skip != .function then modify fun s => { s with status }
      trapActions perform status rest

def runTraps (perform : Perform) : Sh Unit := do
  let s ← get
  if s.isAttended || s.traps.any fun t => t.1 != 0 && !t.2.isEmpty then Sh.collectSignals
  let s ← get
  if s.pending.isEmpty then return
  let status := s.exitStatus.getD s.status
  modify fun s => { s with exitStatus := some status }
  trapActions perform status ((List.range Signal.count).filter s.pending.contains)
  modify fun t => { t with exitStatus := s.exitStatus }

def forgetPlace (stop : Stop) : Sh Unit := do
  modify fun s =>
    let asTold := stop == .exit || s.skip == .functionAsIs
    { s with
      status := if asTold then s.exitStatus.getD s.status else s.status
      exitStatus := none
      skip := .nothing
      loops := 0
      tracing := false }
  Redirection.popTo 0 (← get).savedFds.length

/-- The end of a shell: the action for the end runs, and may choose another status. -/
def leave (perform : Perform) (stop : Stop) : Sh Nat := do
  forgetPlace stop
  modify fun s => { s with exitStatus := some s.status }
  match (← get).trap? 0 with
  | none => forgetPlace .exit
  | some action =>
    modify fun s => s.setTrap 0 none
    match ← Sh.caught (evalText perform action false) with
    | .ok _ =>
      modify fun s => { s with skip := .functionAsIs }
      forgetPlace .finished
    | .error stop => forgetPlace stop
  Sh.flush
  return (← get).status % 256

def finish (perform : Perform) (body : Sh Unit) : Sh Nat := do
  match ← Sh.caught body with
  | .ok _ => leave perform .finished
  | .error stop => leave perform stop

/-- Runs a command to the end of the shell, after some preparation. -/
def finishWith (perform : Perform) (prepare : Sh Unit) (c : Command) (m : Manner) : Sh Nat :=
  finish perform do
    prepare
    let _ ← perform (.run (some c) { m with last := true })

def withoutLineEnds (text : Octets) : Octets := (text.reverse.dropWhile (· == '\n')).reverse

def captured (perform : Perform) (body : Option Command) : Sh Octets := do
  match body with
  | none => return []
  | some c =>
    match ← Sh.call .pipe with
    | .numbers r w =>
      let job ← Sh.newJob
      Sh.start job false <| finishWith perform (do
        let _ ← Sh.call (.close r)
        if w != 1 then
          let _ ← Sh.call (.copy w 1)
          let _ ← Sh.call (.close w)) c {}
      let _ ← Sh.call (.close w)
      let pieces ← Sh.proc (Proc.readAll r Sh.manyReads)
      let _ ← Sh.call (.close r)
      let status ← Sh.awaitJob job
      modify fun s => { s with captured := status }
      let text : Octets :=
        match pieces with
        | .ok pieces => pieces.flatten
        | .error _ => []
      return withoutLineEnds (text.filter (· != '\x00'))
    | _ => Sh.failText "Pipe call failed"

/-- How far the shell skips at the end of a round, counted down. -/
def skipRound : Sh Skip := do
  let s ← get
  match s.skip with
  | .toEnd | .toNext =>
    if s.skipCount ≤ 1 then
      set { s with skip := .nothing, skipCount := 0 }
      return s.skip
    else
      set { s with skipCount := s.skipCount - 1 }
      return .toEnd
  | skip => return skip

def Skip.goesOn : Skip → Bool
  | .nothing | .toNext => true
  | _ => false

end LintRelay.Shell

import LintRelay.Process.Signal
import LintRelay.Shell.Session
/-! The processes that a shell has started. Those of one command belong together and are a job; the
shell waits for a job in the foreground, and may ask for the others. -/
namespace LintRelay.Shell

open Process

def statusOf : Ending → Nat
  | .exited code => code
  | .killed signal => 128 + signal

namespace Job

/-- The status of a job is that of its last process. -/
def status (j : Job) : Nat :=
  match j.processes.getLast? with
  | some (_, some how) => statusOf how
  | _ => 0

def condition (j : Job) : String :=
  if j.isRunning then "Running"
  else
    match j.processes.getLast? with
    | some (_, some (.killed signal)) => Signal.description signal
    | some (_, some (.exited code)) => if code == 0 then "Done" else "Done(" ++ toString code ++ ")"
    | _ => "Done"

end Job

namespace State

def job? (s : State) (number : Nat) : Option Job := s.jobs.find? (·.number == number)

def dropJob (s : State) (number : Nat) : State :=
  { s with jobs := s.jobs.filter (·.number != number) }

/-- The least number that no job has, or one that is done and was waited for. -/
def freeJobNumber (s : State) : Nat :=
  let isFree (n : Nat) : Bool :=
    match s.job? n with
    | none => true
    | some j => !j.isRunning && j.waited
  (((List.range (s.jobs.length + 1)).map (· + 1)).find? isFree).getD 1

def hasRunningJobs (s : State) : Bool := s.jobs.any Job.isRunning

def noteEnding (s : State) (id : Nat) (how : Ending) : State :=
  let note (p : Nat × Option Ending) : Nat × Option Ending :=
    if p.1 == id && p.2.isNone then (id, some how) else p
  { s with jobs := s.jobs.map fun j => { j with processes := j.processes.map note } }

end State

namespace Sh

def newJob : Sh Nat := do
  let s ← get
  let number := s.freeJobNumber
  set { s.dropJob number with jobs := { number } :: (s.dropJob number).jobs }
  return number

/-- A process of the job that is waited for has ended. If that was not by its own will, the shell
tells so. -/
def noteEnding (wanted : Option Nat) (id : Nat) (how : Ending) : Sh Unit := do
  let s ← get
  let isWanted := s.jobs.any fun j =>
    some j.number == wanted && j.processes.any fun p => p.1 == id
  set (s.noteEnding id how)
  match how with
  | .killed signal =>
    if isWanted && signal != 2 && signal != 13 then
      report ((Signal.description signal).toList ++ ['\n'])
  | _ => return

def manyWaits : Nat := 1000000000

def settle (wanted : Option Nat) : (steps : Nat) → Sh Unit
  | 0 => return
  | steps + 1 => do
    if !(← get).hasRunningJobs then return
    match ← call (.wait false false) with
    | .ended id how =>
      noteEnding wanted id how
      settle wanted steps
    | _ => return

def settleAll : Sh Unit := settle none manyWaits

def untilDone (job : Nat) : (steps : Nat) → Sh Unit
  | 0 => return
  | steps + 1 => do
    if ((← get).job? job).any Job.isRunning then
      match ← call (.wait true false) with
      | .ended id how =>
        noteEnding (some job) id how
        untilDone job steps
      | _ => return

/-- Waits for a job in the foreground, and forgets it; its status. -/
def awaitJob (job : Nat) : Sh Nat := do
  untilDone job manyWaits
  settle (some job) manyWaits
  let status := (((← get).job? job).map Job.status).getD 0
  modify fun s => s.dropJob job
  return status

def collectSignals : Sh Unit := do
  match ← call .kept with
  | .signals list => modify fun s => { s with pending := s.pending ++ list }
  | _ => return

/-- Waits until a job is done, or with no job until any process has ended; false, if a signal came
first. -/
def awaitUnlessSignalled (job : Option Nat) : (steps : Nat) → Sh Bool
  | 0 => return true
  | steps + 1 => do
    let s ← get
    let isOpen : Bool :=
      match job with
      | some n => (s.job? n).any Job.isRunning
      | none => true
    if !isOpen then
      settle job manyWaits
      return true
    match ← call (.wait true true) with
    | .ended id how =>
      noteEnding job id how
      match job with
      | some _ => awaitUnlessSignalled job steps
      | none =>
        settle none manyWaits
        return true
    | .failed .interrupted =>
      collectSignals
      settle job manyWaits
      return false
    | _ => return true

/-- What a copy of the shell forgets: actions on signals, and the processes of the other one. A copy
in the background hears no interrupts, and its first process reads nothing. -/
def becomeChild (background isFirst : Bool) : Sh Unit := do
  let s ← get
  let reset := s.traps.filter fun t => !t.2.isEmpty
  set { s with
    traps := s.traps.filter fun t => t.2.isEmpty
    pending := []
    isChild := true
    readLine := s.mainLine
    jobs := []
    savedFds := [] }
  for (signal, _) in reset do
    if signal != 0 then let _ ← call (.onSignal signal .usual)
  if s.isAttended then
    for signal in [2, 3, 15] do
      if (s.trap? signal).isNone then let _ ← call (.onSignal signal .usual)
  if background then
    let _ ← call (.onSignal 2 .ignore)
    let _ ← call (.onSignal 3 .ignore)
    modify fun s => { s with immune := 2 :: 3 :: s.immune }
    if isFirst then
      let _ ← call (.close 0)
      let _ ← proc (Proc.openFile "/dev/null".toList { reads := true })

def start (job : Nat) (background : Bool) (body : Sh Nat) : Sh Unit := do
  let isFirst := ((← get).job? job).any (·.processes.isEmpty)
  let id ← fork do
    becomeChild background isFirst
    body
  modify fun s =>
    { s with
      jobs := s.jobs.map fun j =>
        if j.number == job then { j with processes := j.processes ++ [(id, none)] } else j
      lastBackground := if background then id else s.lastBackground }

def listing (s : State) (withIds : Bool) (j : Job) : Octets :=
  let mark :=
    if (s.jobs.head?.map (·.number)) == some j.number then '+'
    else if (s.jobs[1]?.map (·.number)) == some j.number then '-'
    else ' '
  let ids := j.processes.map fun p => Octets.ofNat p.1 ++ [' ']
  let number := '[' :: Octets.ofNat j.number ++ "] ".toList ++ [mark, ' ']
  let start := number ++ (if withIds then ids.headD [] else []) ++ j.condition.toList
  let padded (text : Octets) (column : Nat) : Octets :=
    text ++ List.replicate (max (33 - column) 1) ' '
  let rest : List Octets :=
    if withIds then
      ids.tail.map fun id =>
        " |\n".toList ++ padded (List.replicate number.length ' ' ++ id) (number.length + id.length)
    else (List.replicate (j.processes.length - 1) " | ".toList)
  padded start start.length ++ rest.flatten ++ ['\n']

/-- The job that a text such as `%1` names. -/
def jobNamed (text : Octets) : Sh Nat := do
  let s ← get
  let nobody {α : Type} : Sh α := fail ("No such job: ".toList ++ text)
  if text.head? != some '%' then nobody
  match text.drop 1 with
  | [] | ['%'] | ['+'] =>
    match s.jobs.head? with
    | some j => return j.number
    | none => failText "No current job"
  | ['-'] =>
    match s.jobs[1]? with
    | some j => return j.number
    | none => failText "No previous job"
  | digits =>
    if digits.all Char.isDigit then
      let number := Format.valueOf 10 digits
      if (s.job? number).isSome then return number else nobody
    else nobody

end Sh
end LintRelay.Shell

import LintRelay.Shell.Builtin.Variables
import LintRelay.Shell.Jobs
/-! Commands on processes: what is done on signals, how signals are sent, and what has become of the
processes that a shell has started. -/
namespace LintRelay.Shell.Builtin

open Process

def setTrap (signal : Nat) (action : Option Octets) : Sh Unit := do
  modify fun s => s.setTrap signal action
  if signal != 0 && !(← get).immune.contains signal then
    let how : SignalAction :=
      match action with
      | none => .usual
      | some [] => .ignore
      | some _ => .catch
    let _ ← Sh.call (.onSignal signal how)

def setTraps (action : Option Octets) : List Octets → Sh Nat
  | [] => return 0
  | name :: rest => do
    match Signal.ofText? name 0 with
    | some signal =>
      setTrap signal action
      setTraps action rest
    | none =>
      Sh.report ("trap: ".toList ++ name ++ ": bad trap\n".toList)
      return 1

def trap (args : List Octets) : Sh Nat := do
  match ← operands args with
  | [] =>
    let s ← get
    for signal in List.range Signal.count do
      match s.trap? signal with
      | some action =>
        Sh.print ("trap -- ".toList ++ quote action ++ ' ' :: (Signal.name signal).toList ++ ['\n'])
      | none => pure ()
    return 0
  | [name] => setTraps none [name]
  | action :: names =>
    if !action.isEmpty && action.all Char.isDigit then setTraps none (action :: names)
    else setTraps (if action == ['-'] then none else some action) names

def killUsage {α : Type} : Sh α :=
  Sh.failText "Usage: kill [-s sigspec | -signum | -sigspec] [pid | job]... or\nkill -l [exitstatus]"

def listSignals (args : List Octets) : Sh Nat := do
  match args with
  | [] =>
    Sh.printText "0\n"
    for signal in (List.range Signal.count).tail do Sh.printText (Signal.name signal ++ "\n")
    return 0
  | text :: _ =>
    let n ← Sh.number text
    let n := if 128 < n then n - 128 else n
    if 0 < n && n < Signal.count then
      Sh.printText (Signal.name n ++ "\n")
      return 0
    else Sh.fail ("invalid signal number or exit status: ".toList ++ text)

def sendTo (signal : Nat) : List Octets → Nat → Sh Nat
  | [], status => return status
  | text :: rest, status => do
    let target : Int ←
      match text with
      | '%' :: _ =>
        let job ← Sh.jobNamed text
        let id := (((← get).job? job).bind fun j => j.processes.head?).map (·.1)
        pure (-(id.getD 0 : Int))
      | '-' :: digits =>
        let n ← Sh.number digits
        pure (-(n : Int))
      | text =>
        let n ← Sh.number text
        pure (n : Int)
    match ← Sh.proc (Proc.attempt (.signal target signal)) with
    | .ok _ => sendTo signal rest status
    | .error e =>
      Sh.warn (e.reason ++ "\n")
      sendTo signal rest 1

def kill (args : List Octets) : Sh Nat := do
  match args with
  | [] => killUsage
  | first :: rest =>
    let direct :=
      match first with
      | '-' :: name => Signal.ofText? name 1
      | _ => none
    match direct with
    | some signal => if rest.isEmpty then killUsage else sendTo signal rest 0
    | none =>
      let isOption := first.head? == some '-'
      let (options, targets) ← if isOption then parted "ls:" args else pure ([], args)
      let mut signal := 15
      for (letter, name) in options do
        if letter == 's' then
          match Signal.ofText? name 1 with
          | some n => signal := n
          | none => Sh.fail ("invalid signal number or name: ".toList ++ name)
      if options.any (·.1 == 'l') then listSignals targets
      else if targets.isEmpty then killUsage
      else sendTo signal targets 0

def markWaited : Sh Unit := modify fun s =>
  { s with jobs := s.jobs.map fun j => if j.isRunning then j else { j with waited := true } }

/-- The status that stands for the last signal that has come. -/
def signalStatus : Sh Nat := do
  return 128 + ((← get).pending.getLast?.getD 0)

def waitForAll : (steps : Nat) → Sh Nat
  | 0 => return 0
  | steps + 1 => do
    markWaited
    if !(← get).hasRunningJobs then return 0
    if ← Sh.awaitUnlessSignalled none Sh.manyWaits then waitForAll steps
    else signalStatus

def waitForEach : List Octets → Nat → Sh Nat
  | [], status => return status
  | text :: rest, status => do
    let job ←
      match text with
      | '%' :: _ => pure (some (← Sh.jobNamed text))
      | text =>
        let id ← Sh.number text
        let isIts (j : Job) : Bool := (j.processes.getLast?.map (·.1)) == some id
        pure (((← get).jobs.find? isIts).map (·.number))
    match job with
    | none => waitForEach rest status
    | some n =>
      if ← Sh.awaitUnlessSignalled (some n) Sh.manyWaits then
        let status := (((← get).job? n).map Job.status).getD 0
        markWaited
        waitForEach rest status
      else signalStatus

def wait (args : List Octets) : Sh Nat := do
  match ← operands args with
  | [] => waitForAll Sh.manyWaits
  | list => waitForEach list 127

def showJob (withIds onlyId : Bool) (number : Nat) : Sh Unit := do
  let s ← get
  match s.job? number with
  | none => return
  | some j =>
    if onlyId then Sh.print (Octets.ofNat ((j.processes.head?.map (·.1)).getD 0) ++ ['\n'])
    else
      Sh.print (Sh.listing s withIds j)
      if !j.isRunning then modify fun s => s.dropJob number

def jobs (args : List Octets) : Sh Nat := do
  let (options, args) ← parted "lp" args
  let mode := options.getLast?.map (·.1)
  let list (number : Nat) : Sh Unit := showJob (mode == some 'l') (mode == some 'p') number
  if args.isEmpty then
    Sh.settleAll
    for j in (← get).jobs do list j.number
  else
    for arg in args do
      let number ← Sh.jobNamed arg
      list number
  return 0

/-- Brings a job to the foreground or the background, which only a shell with a terminal can do. -/
def resume (args : List Octets) : Sh Nat := do
  let args ← operands args
  let _ ← Sh.jobNamed (args.headD ['%'])
  Sh.fail ("job ".toList ++ args.headD "(null)".toList ++ " not created under job control".toList)

/-- How long the shell and its children have computed: nothing that can be seen. -/
def times : Sh Nat := do
  Sh.printText "0m0.000000s 0m0.000000s\n0m0.000000s 0m0.000000s\n"
  return 0

/-- What can be limited: the letter, its name in lists, and the unit in which it is counted. -/
def limits : List (Char × String × Resource × Nat) :=
  [('t', "time(seconds)", .time, 1), ('f', "file(blocks)", .fileSize, 512),
    ('d', "data(kbytes)", .data, 1024), ('s', "stack(kbytes)", .stack, 1024),
    ('c', "coredump(blocks)", .core, 512), ('m', "memory(kbytes)", .memory, 1024),
    ('l', "locked memory(kbytes)", .locked, 1024), ('p', "process", .processes, 1),
    ('n', "nofiles", .descriptors, 1), ('v', "vmemory(kbytes)", .space, 1024),
    ('w', "locks", .locks, 1), ('r', "rtprio", .priority, 1)]

def limitOf (r : Resource) : Sh Limit := do
  match ← Sh.call (.limit r) with
  | .limit l => return l
  | _ => return {}

def showLimit (hard : Bool) (r : Resource) (unit : Nat) : Sh Unit := do
  let l ← limitOf r
  match if hard then l.hard else l.soft with
  | some n => Sh.printText (toString (n / unit) ++ "\n")
  | none => Sh.printText "unlimited\n"

def limitNumber (text : Octets) (unit : Nat) : Sh (Option Nat) := do
  if text == "unlimited".toList then return none
  if !text.all Char.isDigit then Sh.failText "bad number"
  let n := Format.valueOf 10 text * unit % Nat.pow 2 64
  return if n == Nat.pow 2 64 - 1 then none else some n

def ulimit (args : List Octets) : Sh Nat := do
  let (options, args) ← parted "HSatfdsmclpnvwr" args
  let letters := options.map (·.1)
  let isKind (c : Char) : Bool := c != 'H' && c != 'S' && c != 'a'
  let kind := ((letters.filter isKind).getLast?).getD 'f'
  let side := (letters.filter fun c => c == 'H' || c == 'S').getLast?
  let showsAll := letters.contains 'a'
  let (r, unit) := ((limits.lookup kind).map (·.2)).getD (.fileSize, 512)
  match args with
  | [] =>
    if showsAll then
      for (_, name, r, unit) in limits do
        Sh.printText (name ++ String.ofList (List.replicate (max (21 - name.length) 1) ' '))
        showLimit (side == some 'H') r unit
    else showLimit (side == some 'H') r unit
    return 0
  | text :: more =>
    if showsAll || !more.isEmpty then Sh.failText "too many arguments"
    let n ← limitNumber text unit
    let l ← limitOf r
    let l : Limit :=
      { soft := if side == some 'H' then l.soft else n, hard := if side == some 'S' then l.hard else n }
    match ← Sh.proc (Proc.attempt (.setLimit r l)) with
    | .ok _ => return 0
    | .error e => Sh.fail (("error setting limit (" ++ e.reason ++ ")").toList)

end LintRelay.Shell.Builtin

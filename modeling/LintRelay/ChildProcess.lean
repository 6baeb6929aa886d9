import LintRelay.Process.Schedule
import LintRelay.Programs
import LintRelay.Runner
/-! Child processes. A child starts only if its program and its working directory are there. Its
outcome is known when it has ended, its input is fed or refused, and nobody holds its output open any
more; if that is not so within the time limit, the child is ended and there is no outcome. -/
namespace LintRelay.ChildProcess

open Process

def hasNul (bs : Bytes) : Bool := bs.contains 0

/-- Whether some part of a command holds a byte that would end it early. -/
def nulInside (c : Command) : Bool :=
  hasNul (Bytes.ofString c.program) || c.args.any hasNul ||
    (c.workingDir.map fun dir => hasNul dir.bytes).getD false ||
    c.env.any fun (k, v) => hasNul (Bytes.ofString k) || hasNul (Bytes.ofString v)

def setVariable (vars : List (Octets × Octets)) (v : Octets × Octets) : List (Octets × Octets) :=
  if vars.any fun e => e.1 == v.1 then vars.map fun e => if e.1 == v.1 then v else e
  else vars ++ [v]

/-- The variables of a child: those that it inherits, and those of its command. -/
def childVariables (w : World) (c : Command) : List (Octets × Octets) :=
  (c.env.map fun (k, v) => (Octets.ofString k, Octets.ofString v)).foldl setVariable
    (w.environment.map fun (k, v) => (octets k, octets v))

def directory (w : World) (c : Command) : Except IoError Location :=
  match c.workingDir with
  | none => .ok w.cwd
  | some dir =>
    match w.files.resolve w.cwd dir with
    | .ok (.found place .directory) => .ok place
    | .ok (.found _ _) => .error .notDirectory
    | .ok (.free _) => .error .noEntry
    | .error e => .error e

/-- Where programs are looked up if no variable says so. -/
def defaultPath : Octets := "/bin:/usr/bin".toList

def programAt (files : FileSystem) (cwd : Location) (path : Octets) : Except IoError String := do
  match ← files.resolve cwd (Kernel.pathOf path) with
  | .free _ => throw .noEntry
  | .found _ (.program name) => return name
  | .found _ _ => throw .accessDenied

/-- Looks for a program in one directory after the other. A file that is there but no program is the
reason if none is found; else the last reason counts. -/
def search (files : FileSystem) (cwd : Location) (name : Octets) (denied : Bool) (last : IoError) :
    List Octets → Except IoError String
  | [] => .error (if denied then .accessDenied else last)
  | d :: rest =>
    match programAt files cwd (Shell.within d name) with
    | .ok p => .ok p
    | .error .accessDenied => search files cwd name true last rest
    | .error .noEntry => search files cwd name denied .noEntry rest
    | .error .notDirectory => search files cwd name denied .notDirectory rest
    | .error e => .error e

def findProgram (files : FileSystem) (cwd : Location) (path : Option Octets) (name : Octets) :
    Except IoError String :=
  if name.isEmpty then .error .noEntry
  else if name.contains '/' then programAt files cwd name
  else if FileSystem.maxName < name.length then .error .nameTooLong
  else search files cwd name false .noEntry (Shell.directories (path.getD defaultPath))

def childId : Nat := 4242

def stdinPipe : Nat := 10

def stdoutPipe : Nat := 11

def stderrPipe : Nat := 12

def startupTime : Nat := 1000000

def feeder (data : Octets) : Proc Nat := do
  match ← Proc.write 0 data with
  | .ok _ => return 0
  | .error _ => return 1

/-- The system as it is when a child starts. Besides its streams the child inherits a descriptor to
which it can write, and what it writes there is not seen. -/
def start (w : World) (c : Command) (dir : Location) (program : String) (args env : List Octets) :
    Kernel :=
  let child : Task :=
    { id := childId
      parent := outsideId
      program := (Programs.run Programs.maxDepth program args env).program
      time := startupTime
      cwd := dir
      fds := [⟨0, 1, true⟩, ⟨1, 2, true⟩, ⟨2, 3, true⟩, ⟨3, 5, true⟩] }
  let feeding : Task :=
    { id := feederId
      parent := outsideId
      program := (feeder (octets (c.stdin.getD []))).program
      time := 0
      cwd := []
      fds := [⟨0, 4, true⟩]
      ignored := [sigPipe] }
  { files := w.files
    opened :=
      [⟨1, .source stdinPipe, { reads := true }, 0⟩, ⟨2, .sink stdoutPipe, { writes := true }, 0⟩,
        ⟨3, .sink stderrPipe, { writes := true }, 0⟩, ⟨4, .sink stdinPipe, { writes := true }, 0⟩,
        ⟨5, .device .null, { writes := true }, 0⟩]
    pipes :=
      [{ id := stdinPipe }, { id := stdoutPipe, drained := true },
        { id := stderrPipe, drained := true }]
    tasks := [child, feeding]
    next := childId + 1 }

def spawn (w : World) (c : Command) : Except IoError Kernel := do
  if nulInside c then throw .nulByte
  let dir ← directory w c
  let name := Octets.ofString c.program
  let vars := childVariables w c
  let program ← findProgram w.files dir (vars.lookup "PATH".toList) name
  let args := name :: c.args.map octets
  let env := vars.map fun (k, v) => k ++ '=' :: v
  if areTooLong name args env then throw .argumentsTooLong
  return start w c dir program args env

def ending? (k : Kernel) (id : Nat) : Option Ending := (k.task? id).bind (·.ended)

def isDone (k : Kernel) : Bool :=
  (ending? k childId).isSome && (ending? k feederId).isSome && !k.hasWriter stdoutPipe &&
    !k.hasWriter stderrPipe

/-- How many steps a child may take before it counts as one without an end. -/
def maxSteps : Nat := 1000000000

def contents (k : Kernel) (pipe : Nat) : Bytes :=
  ((k.pipe? pipe).map fun p => Octets.bytes p.total).getD []

/-- The exit code of a child, -1 after a signal. -/
def exitCode (k : Kernel) : Int :=
  match ending? k childId with
  | some (.exited code) => code
  | _ => -1

def run (c : Command) : Act Failure Outcome := do
  Act.log (.spawning c.line)
  let k ← Act.because (.launch c.program) (Act.ofExcept (spawn (← get) c))
  let k := k.run isDone (c.timeout.map Duration.inNanos) maxSteps
  modify fun w => { w with files := k.files }
  match c.timeout.filter fun _ => !isDone k with
  | some limit =>
    Act.log (.timedOut c.program limit)
    throw (.timeout c.program limit)
  | none =>
    if ending? k feederId == some (.exited 1) then Act.log (.inputUnread (c.stdin.getD []).length)
    let o : Outcome := ⟨exitCode k, contents k stdoutPipe, contents k stderrPipe⟩
    Act.log (.exited c.program o.exitCode o.stdout.length o.stderr.length)
    return o

def runner : Runner := ⟨"tokio", run⟩

end LintRelay.ChildProcess

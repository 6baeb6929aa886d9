import LintRelay.Shell.Interpreter
/-! How a shell starts: it takes over the variables that it is given, reads its options, and runs a
text, a file or what comes from standard input. -/
namespace LintRelay.Shell

open Process Builtin

structure Options where
  /-- Whether the first argument is a text to run. -/
  runsText : Bool := false
  flags : List (Flag × Bool) := []
  rest : List Octets := []

namespace Options

/-- Shows options before any of them is set; until then all of them count as on. -/
def showAll (on : Bool) : Sh Unit := do
  let before := (← get).flags
  modify fun s => { s with flags := flagTable.map (·.1) }
  showFlags !on
  modify fun s => { s with flags := before }

def letters (on : Bool) (o : Options) : Octets → Sh Options
  | [] => return o
  | 'c' :: cs => letters on { o with runsText := true } cs
  | 'l' :: cs => letters on o cs
  | 'o' :: cs => do
    match o.rest with
    | [] =>
      showAll on
      letters on o cs
    | name :: rest =>
      match flagTable.find? fun e => e.2.1.toList == name with
      | some (f, _, _) => letters on { o with flags := o.flags ++ [(f, on)], rest } cs
      | none => Sh.fail ("Illegal option -o ".toList ++ name)
  | c :: cs => do
    match flagOf? c with
    | some f => letters on { o with flags := o.flags ++ [(f, on)] } cs
    | none => Sh.fail ("Illegal option -".toList ++ [c])

def read : (steps : Nat) → Options → Sh Options
  | 0, o => return o
  | steps + 1, o => do
    match o.rest with
    | ['-'] :: rest | ['-', '-'] :: rest => return { o with rest }
    | ('-' :: cs) :: rest => read steps (← letters true { o with rest } cs)
    | ('+' :: cs) :: rest => read steps (← letters false { o with rest } cs)
    | _ => return o

end Options

/-- The variables that a shell takes over from those that it is given. -/
def imported (env : List Octets) : List (Octets × Octets) :=
  env.filterMap fun e =>
    let (name, value) := splitAssignment e
    if isName name then value.map (name, ·) else none

def initialVariables : List (Octets × Variable) :=
  [("PATH".toList, systemPath), ("PS1".toList, "# ".toList), ("PS2".toList, "> ".toList),
    ("PS4".toList, "+ ".toList)].map fun (name, value) => (name, ⟨some value, false, false⟩)

/-- Finds out in which directory the shell is. What it was told is believed if it leads there. -/
def findDirectory : Sh Unit := do
  let told := ((← get).text? "PWD").getD []
  let isRight ←
    if told.head? == some '/' then
      let there ← Sh.proc (Proc.info told)
      let here ← Sh.proc (Proc.info ['.'])
      match there, here with
      | .ok a, .ok b => pure (a.identity == b.identity)
      | _, _ => pure false
    else pure false
  setDirectory (← if isRight then pure told else physicalDirectory) false

def setUp (env : List Octets) : Sh Unit := do
  let (id, parent) ← Sh.proc Proc.self
  modify fun s => { s with id, bindings := initialVariables }
  for (name, value) in imported env do modify fun s => s.assign name value true
  modify fun s => s.assign "IFS".toList " \t\n".toList
  modify fun s => s.assign "OPTIND".toList ['1']
  modify fun s => s.assign "PPID".toList (Octets.ofNat parent)
  findDirectory
  match ← Sh.call .ignored with
  | .signals list => modify fun s => { s with immune := list }
  | _ => return

/-- A script that is read from standard input as it comes. -/
def Script.ofInput : Script :=
  { reader := { sources := [{ text := [] }], final := false }, fd := some 0, isFile := true,
    isMain := true }

/-- Gets ready for somebody who talks to the shell: it is not ended from outside, and a file that a
variable names is run first. -/
def attend (perform : Perform) : Sh Unit := do
  let _ ← Sh.call (.onSignal 2 .catch)
  for signal in [3, 15] do let _ ← Sh.call (.onSignal signal .ignore)
  let path ← shownText perform "ENV"
  if (← Sh.proc (Proc.info path)) matches .ok _ then
    let text ← readScript path
    match ← Sh.caught (perform (.lines { Script.ofText text with isFile := true } false 0)) with
    | .error .error => forgetPlace .error
    | result => let _ ← Sh.rethrow result

/-- Goes on after errors, if somebody talks to the shell, with the rest of a script. -/
def goingOn (perform : Perform) (rest : Script) : (steps : Nat) → Sh Unit → Sh Unit
  | 0, body => body
  | steps + 1, body => do
    match ← Sh.caught body with
    | .error .error =>
      if !(← get).isAttended then throw .error
      forgetPlace .error
      Sh.popFramesTo 0 (← get).frames.length
      goingOn perform rest steps do
        let _ ← perform (.lines rest false 0)
    | result => Sh.rethrow result

/-- What a shell does from its start to its end. After an error nothing is left of a script in a
file. -/
def session (perform : Perform) (args env : List Octets) : Sh Unit := do
  setUp env
  let o ← Options.read (args.length + 1) { rest := args.tail }
  if o.runsText && o.rest.isEmpty then Sh.failText "-c requires an argument"
  for (f, on) in o.flags do modify fun s => s.setFlag f on
  let isInput := (← get).has .stdin || o.rest.isEmpty
  if o.rest.isEmpty then modify fun s => s.setFlag .stdin true
  let ofFile (text : Octets) : Script := { Script.ofText text with isFile := true, isMain := true }
  let script ← if o.runsText || isInput then pure .ofInput else ofFile <$> readScript (o.rest.headD [])
  match if o.runsText then o.rest.tail else o.rest with
  | [] => pure ()
  | name :: args =>
    if o.runsText || !isInput then modify fun s => { s with name, args }
    else modify fun s => { s with args := name :: args }
  let monitor := (o.flags.filter (·.1 == .monitor)).getLast?.map (·.2)
  if monitor.getD ((← get).has .interactive) then setFlag .monitor true
  if (← get).has .interactive then attend perform
  let rest : Script := if o.runsText || isInput then .ofInput else ofFile []
  goingOn perform rest Sh.manyReads do
    if o.runsText then
      let _ ← evalText perform (o.rest.headD []) false
    if !o.runsText || (← get).has .stdin then
      let _ ← perform (.lines script false 0)

def maxDepth : Nat := 1000000000000

/-- Runs a shell; `launch` runs the programs that it becomes. -/
def program (launch : String → List Octets → List Octets → Proc Nat) (args env : List Octets) :
    Proc Nat := do
  let perform := perform maxDepth
  let body := finish perform (session perform args env)
  let (result, _) ← (ExceptT.run body).run { name := args.headD [], launch }
  match result with
  | .ok code => return code
  | .error _ => return 2

end LintRelay.Shell

import LintRelay.Shell.Control
import LintRelay.Shell.Invocation
/-! How commands run. A simple command gets its words, then its redirections, then its variables; the
others run the commands that they are made of. -/
namespace LintRelay.Shell

open Process

/-- What a variable holds, worked out as a text between quotes. -/
def shownText (perform : Perform) (name : String) : Sh Octets := do
  let s ← get
  let text := (s.text? name).getD []
  let r : Reader := { sources := [{ text }], documents := s.documents, aliases := s.aliases }
  match Parser.quotedText.run r with
  | .error _ => return text
  | .ok (w, r) =>
    set { s with tracing := true, documents := r.documents }
    let shown ← Expansion.text (captured perform) { quoted := true } w
    modify fun s => { s with tracing := false }
    return shown

/-- Shows a command before it runs, where messages went before its redirections. -/
def trace (perform : Perform) (assignments words : List Octets) : Sh Unit := do
  let s ← get
  if s.has .xtrace && !s.tracing then
    let front ← shownText perform "PS4"
    let line := front ++ Octets.join [' '] (assignments ++ words) ++ ['\n']
    let _ ← Sh.proc (Proc.write s.traceFd line)

def carryAssignments (perform : Perform) (i : Invocation) (ws : List Word) : Sh (List Octets) :=
  ws.mapM fun w => do
    let text ← Expansion.text (captured perform) { assignment := true } w
    let name := text.takeWhile (· != '=')
    let value := text.drop (name.length + 1)
    if i.isOwn then Sh.makeLocal name (some value) true
    else Sh.assign name value (i.isExec && 1 < i.words.length)
    return text

/-- Runs a command of the shell itself. Its errors end the shell only if it is a special one. -/
def runBuiltin (perform : Perform) (i : Invocation) (b : Builtin) (m : Manner) : Sh Unit := do
  let command := (← get).command
  let name := i.words.headD []
  modify fun s => { s with command := some name }
  let result ← Sh.caught do
    let status ← carryOut perform b.name i.words.tail m
    Sh.flush
    let s ← get
    if s.outputFailed then
      Sh.complain (s.command.getD [] ++ ": I/O error".toList)
      set { s with status := status ||| 1 }
    else set { s with status }
  modify fun s => { s with command, output := [], outputSize := 0, outputFailed := false }
  match result with
  | .ok _ => return
  | .error .error => if i.special == some true then throw .error
  | .error stop => throw stop

def maxFunctions : Nat := 1000

def runFunction (perform : Perform) (body : Command) (args : List Octets) (m : Manner) :
    Sh Unit := do
  let before ← get
  if maxFunctions ≤ before.functionDepth then
    Sh.failText s!"Maximum function recursion depth ({maxFunctions}) reached"
  set { before with
    args, optionIndex := 1, optionOffset := none, loops := 0
    functionDepth := before.functionDepth + 1 }
  let result ← Sh.caught (perform (.run (some body) { tested := m.tested }))
  modify fun s =>
    { s with
      args := before.args
      optionIndex := before.optionIndex
      optionOffset := before.optionOffset
      loops := before.loops
      functionDepth := before.functionDepth
      skip := match s.skip with
        | .function | .functionAsIs => .nothing
        | skip => skip }
  let _ ← Sh.rethrow result

def hasTraps (s : State) : Bool := s.traps.any fun t => !t.2.isEmpty

/-- Runs a program: as a process of its own, or instead of the shell if that has nothing else to
do. -/
def runProgram (i : Invocation) (m : Manner) : Sh Nat := do
  let s ← get
  let path := i.path.getD (Lookup.pathOf s)
  if m.last && !hasTraps s then Lookup.become i.words path
  else
    let job ← Sh.newJob
    Sh.start job false do
      let _ ← Sh.caught (Lookup.become (α := Unit) i.words path)
      return (← get).status
    Sh.awaitJob job

def runNamed (perform : Perform) (i : Invocation) (m : Manner) : Sh Nat := do
  let done : Sh Nat := do
    Sh.settleAll
    return (← get).status
  match i.words, i.builtin with
  | [], _ =>
    modify fun s => { s with status := s.captured }
    done
  | _, some b =>
    runBuiltin perform i b m
    done
  | name :: args, none =>
    match ← Lookup.find name (!i.skipsFunctions) i.path with
    | .builtin b =>
      runBuiltin perform i b m
      done
    | .function body =>
      runFunction perform body args m
      done
    | .program _ => runProgram i m
    | .nothing e =>
      Sh.complain (name ++ ": ".toList ++ (Lookup.reason e).toList)
      modify fun s => { s with status := 127 }
      return 127

def runSimple (perform : Perform) (line : Nat) (assignments words : List Word)
    (redirects : List Redirect) (m : Manner) : Sh Nat := do
  Sh.tick
  modify fun s => { s with line, captured := 0 }
  let i ← Invocation.ofWords (captured perform) words
  let before ← get
  if i.isOwn then Sh.pushFrame
  modify fun s => { s with traceFd := 2 }
  let plans ← Redirection.plan (captured perform) redirects
  if !redirects.isEmpty then Redirection.push
  let status ←
    if ← Redirection.attempt (captured perform) plans then
      let saved := (((← get).savedFds.headD []).lookup 2).join
      if !redirects.isEmpty then
        modify fun s => { s with traceFd := saved.getD 2 }
      let texts ← carryAssignments perform i assignments
      trace perform texts i.shown
      runNamed perform i m
    else
      modify fun s => { s with status := 2 }
      if i.special == some true then throw .error
      pure 2
  if !redirects.isEmpty && before.savedFds.length < (← get).savedFds.length then
    Redirection.popTo (before.savedFds.length + 1) (← get).savedFds.length
    Redirection.pop i.isExec
  Redirection.popTo before.savedFds.length (← get).savedFds.length
  Sh.popFramesTo before.frames.length (← get).frames.length
  return status

/-- Starts the parts of a pipeline, each reading what the one before prints. -/
def startParts (perform : Perform) (job : Nat) (background : Bool) (m : Manner) :
    (input : Option Nat) → List Command → Sh Unit
  | _, [] => return
  | input, c :: rest => do
    let pipe ←
      if rest.isEmpty then pure none
      else
        match ← Sh.call .pipe with
        | .numbers r w => pure (some (r, w))
        | _ => Sh.failText "Pipe call failed"
    Sh.start job background <| finishWith perform (do
      match pipe with
      | some (r, _) => let _ ← Sh.call (.close r)
      | none => pure ()
      match input with
      | some fd =>
        if fd != 0 then
          let _ ← Sh.call (.copy fd 0)
          let _ ← Sh.call (.close fd)
      | none => pure ()
      match pipe with
      | some (_, w) =>
        if 1 < w then
          let _ ← Sh.call (.copy w 1)
          let _ ← Sh.call (.close w)
      | none => pure ()) c m
    match input with
    | some fd => let _ ← Sh.call (.close fd)
    | none => pure ()
    match pipe with
    | some (_, w) => let _ ← Sh.call (.close w)
    | none => pure ()
    startParts perform job background m (pipe.map (·.1)) rest

def runPipeline (perform : Perform) (background : Bool) (parts : List Command) (m : Manner) :
    Sh Nat := do
  Sh.tick
  let job ← Sh.newJob
  startParts perform job background m none parts
  if background then return 0 else Sh.awaitJob job

/-- Runs a command in a copy of the shell, or at the end in the shell itself. -/
def runSubshell (perform : Perform) (background : Bool) (line : Nat) (body : Command)
    (redirects : List Redirect) (m : Manner) : Sh Nat := do
  Sh.tick
  modify fun s => { s with line }
  let plans ← Redirection.plan (captured perform) redirects
  let prepare := Redirection.applyForGood (captured perform) plans
  if !background && m.last && !hasTraps (← get) then
    Sh.becomeChild false false
    let code ← finishWith perform prepare body m
    Sh.proc (Proc.exit code)
  else
    let job ← Sh.newJob
    let m := if background then { m with tested := false } else m
    Sh.start job background (finishWith perform prepare body m)
    if background then return 0 else Sh.awaitJob job

/-- Runs a command with redirections; whether they could be carried out, too. -/
def runRedirected (perform : Perform) (line : Nat) (body : Command) (redirects : List Redirect)
    (m : Manner) : Sh (Nat × Bool) := do
  modify fun s => { s with line }
  let plans ← Redirection.plan (captured perform) redirects
  Redirection.push
  let isOpen ← Redirection.attempt (captured perform) plans
  let status ← if isOpen then perform (.run (some body) { tested := m.tested }) else pure 2
  Redirection.pop false
  return (status, isOpen)

def chosen (perform : Perform) (subject : Octets) :
    List (List Word × Option Command) → Sh (Option Command)
  | [] => return none
  | (patterns, body) :: rest => do
    let rec anyMatches : List Word → Sh Bool
      | [] => return false
      | p :: more => do
        let pattern ← Expansion.pattern (captured perform) p
        if (Pattern.ofText pattern).matchesText subject then return true else anyMatches more
    if ← anyMatches patterns then return body else chosen perform subject rest

def setFunction (s : State) (name : Octets) (body : Command) : State :=
  { s with functions := (name, body) :: s.functions.filter fun f => f.1 != name }

def inLoop (body : Sh Nat) : Sh Nat := do
  modify fun s => { s with loops := s.loops + 1 }
  let status ← body
  modify fun s => { s with loops := s.loops - 1 }
  return status

/-- What comes of a command: the status, whether it becomes that of the shell, and whether a strict
script ends if it is not zero. -/
structure Result where
  status : Nat
  counts : Bool := true
  isStrict : Bool := false

def runTree (perform : Perform) (c : Command) (m : Manner) : Sh Result := do
  match c with
  | .simple line assignments words redirects =>
    return ⟨← runSimple perform line assignments words redirects m, true, !m.tested⟩
  | .pipeline background parts => return ⟨← runPipeline perform background parts m, true, !m.tested⟩
  | .subshell line body redirects =>
    return ⟨← runSubshell perform false line body redirects m, true, !m.tested⟩
  | .background line body redirects =>
    return ⟨← runSubshell perform true line body redirects m, true, !m.tested⟩
  | .redirected line body redirects =>
    let (status, isOpen) ← runRedirected perform line body redirects m
    return ⟨status, true, !isOpen && !m.tested⟩
  | .negated body =>
    let status ← perform (.run (some body) { tested := true })
    if (← get).skip != .nothing then return ⟨status, true, false⟩
    return ⟨if status == 0 then 1 else 0, true, false⟩
  | .both first second =>
    let status ← perform (.run (some first) { tested := true })
    if status != 0 || (← get).skip != .nothing then return ⟨status, false, false⟩
    return ⟨← perform (.run (some second) m), true, false⟩
  | .either first second =>
    let status ← perform (.run (some first) { tested := true })
    if status == 0 || (← get).skip != .nothing then return ⟨status, false, false⟩
    return ⟨← perform (.run (some second) m), true, false⟩
  | .sequence first second =>
    let status ← perform (.run (some first) { tested := m.tested })
    if (← get).skip != .nothing then return ⟨status, false, false⟩
    return ⟨← perform (.run (some second) m), true, false⟩
  | .branch test yes no =>
    let status ← perform (.run (some test) { tested := true })
    if (← get).skip != .nothing then return ⟨status, false, false⟩
    if status == 0 then return ⟨← perform (.run (some yes) m), true, false⟩
    match no with
    | some c => return ⟨← perform (.run (some c) m), true, false⟩
    | none => return ⟨0, true, false⟩
  | .loop success test body =>
    return ⟨← inLoop (perform (.rounds success test body m.tested 0)), true, false⟩
  | .each line name words body =>
    modify fun s => { s with line }
    let values ← Expansion.allFields (captured perform) words
    return ⟨← inLoop (perform (.values name values body m.tested 0)), true, false⟩
  | .choose line subject arms =>
    modify fun s => { s with line }
    let text ← Expansion.text (captured perform) { tilde := true } subject
    match ← chosen perform text arms with
    | some c => return ⟨← perform (.run (some c) m), true, false⟩
    | none => return ⟨0, true, false⟩
  | .define _ name body =>
    Sh.tick
    modify fun s => setFunction s name body
    return ⟨0, true, false⟩

def run (perform : Perform) (c : Option Command) (m : Manner) : Sh Nat := do
  let ended (status : Nat) (isStrict : Bool) : Sh Nat := do
    runTraps perform
    let s ← get
    if (isStrict && status != 0 && s.has .errexit) || m.last then throw .finished
    return status
  match if (← get).has .noexec then none else c with
  | none => ended 0 false
  | some c =>
    runTraps perform
    let r ← runTree perform c m
    if r.counts then modify fun s => { s with status := r.status }
    ended r.status r.isStrict

def blockSize : Nat := 8192

def extended (r : Reader) (text : Octets) : Reader :=
  match r.sources.reverse with
  | src :: more => { r with sources := ({ src with text := src.text ++ text } :: more).reverse }
  | [] => { r with sources := [{ text }] }

def showRead (before after : Reader) : Sh Unit := do
  if (← get).has .verbose then
    let size (r : Reader) : Nat := (r.sources.map fun src => src.text.length).foldl (· + ·) 0
    let text := ((before.sources.getLast?.map (·.text)).getD []).take (size before - size after)
    Sh.report text

/-- Asks for a line of a script, and for as many more as belong to it. -/
def prompt (perform : Perform) (script : Script) (more : Nat) : Sh Unit := do
  if script.isMain && (← get).isAttended then
    Sh.report (← shownText perform "PS1")
    for _ in List.range more do Sh.report (← shownText perform "PS2")

/-- The commands of the next line of a script, and what comes after it; nothing at the end. -/
def nextLine (perform : Perform) (script : Script) :
    (steps : Nat) → Sh (Option (Option Command × Script))
  | 0 => return none
  | steps + 1 => do
    let s ← get
    let r := { script.reader with
      aliases := s.aliases, documents := s.documents, reserved := specialNames }
    match Parser.line.run r with
    | .ok (c, after) =>
      prompt perform script (after.line - r.line - 1)
      modify fun s =>
        { s with
          documents := after.documents
          readLine := after.line
          mainLine := if script.isMain then after.line else s.mainLine }
      if script.isFile then showRead r after
      if c.isNone && Parser.isAtEnd after then return none
      return some (c, { script with reader := after })
    | .error (.wrong line message) =>
      prompt perform script (line - r.line)
      if script.isFile then showRead r { r with sources := [] }
      Sh.syntaxError line message
    | .error .incomplete =>
      match script.fd with
      | none => nextLine perform { script with reader := { script.reader with final := true } } steps
      | some fd =>
        match ← Sh.proc (Proc.read fd blockSize) with
        | .ok (c :: cs) =>
          let text := (c :: cs).filter (· != '\x00')
          nextLine perform { script with reader := extended script.reader text } steps
        | _ =>
          nextLine perform { script with reader := { script.reader with final := true } } steps

/-- How often a shell that is not to end with its input looks for more. -/
def maxEnds : Nat := 50

def endOfMain (perform : Perform) (script : Script) : Sh Unit := do
  let s ← get
  if s.has .ignoreeof then
    for _ in List.range maxEnds do
      Sh.report "\nUse \"exit\" to leave shell.\n".toList
      prompt perform script 0
  else if s.isAttended then Sh.report ['\n']

def runLines (perform : Perform) (script : Script) (tested : Bool) (status : Nat) : Sh Nat := do
  match ← nextLine perform script Sh.manyReads with
  | none =>
    if script.isMain then endOfMain perform script
    return status
  | some (c, script) =>
    let given ← perform (.run c { tested })
    let status := if c.isSome then given else status
    let s ← get
    match s.skip with
    | .nothing => perform (.lines script tested status)
    | .function | .functionAsIs =>
      if script.isFile then set { s with skip := .nothing }
      return status
    | _ => return status

def runRounds (perform : Perform) (success : Bool) (test body : Command) (tested : Bool)
    (status : Nat) : Sh Nat := do
  let given ← perform (.run (some test) { tested := true })
  let skip ← skipRound
  let status := if skip == .function then given else status
  match skip with
  | .nothing =>
    if (given == 0) != success then return status
    let status ← perform (.run (some body) { tested })
    if (← skipRound).goesOn then perform (.rounds success test body tested status)
    else return status
  | .toNext => perform (.rounds success test body tested status)
  | _ => return status

def runValues (perform : Perform) (name : Octets) (values : List Octets) (body : Command)
    (tested : Bool) (status : Nat) : Sh Nat := do
  match values with
  | [] => return status
  | v :: rest =>
    Sh.assign name v
    let status ← perform (.run (some body) { tested })
    if (← skipRound).goesOn then perform (.values name rest body tested status) else return status

/-- Does what there is to do; `depth` bounds how deeply commands are nested and how long loops
run. -/
def perform : (depth : Nat) → Perform
  | 0, _ => throw .finished
  | depth + 1, w =>
    match w with
    | .run c m => run (perform depth) c m
    | .lines script tested status => runLines (perform depth) script tested status
    | .rounds success test body tested status =>
      runRounds (perform depth) success test body tested status
    | .values name values body tested status =>
      runValues (perform depth) name values body tested status

end LintRelay.Shell

import LintRelay.Shell.Builtin.Options
import LintRelay.Shell.Fields
import LintRelay.Shell.Frames
/-! Commands on variables and on the arguments of a script: how they are set, shown, read from a line
and read as options. -/
namespace LintRelay.Shell.Builtin

open Process

/-- A text between quotes, so that a shell reads it back. -/
def singleQuoted : (steps : Nat) → Octets → Octets
  | 0, _ => []
  | steps + 1, text =>
    let plain := text.takeWhile (· != '\x27')
    let rest := text.dropWhile (· != '\x27')
    let quotes := rest.takeWhile (· == '\x27')
    let after := rest.dropWhile (· == '\x27')
    '\x27' :: plain ++ '\x27' ::
      (if rest.isEmpty then []
        else '"' :: quotes ++ '"' :: (if after.isEmpty then [] else singleQuoted steps after))

def quote (text : Octets) : Octets := singleQuoted (text.length + 1) text

def showVariables (front : Octets) (isShown : Variable → Bool) : Sh Nat := do
  let s ← get
  let shown := (s.bindings.filter fun e => isShown e.2).mergeSort fun a b => Octets.le a.1 b.1
  let front := if front.isEmpty then [] else front ++ [' ']
  for (name, v) in shown do
    let value :=
      match v.value with
      | some text => '=' :: quote text
      | none => []
    Sh.print (front ++ name ++ value ++ ['\n'])
  return 0

def splitAssignment (text : Octets) : Octets × Option Octets :=
  let name := text.takeWhile (· != '=')
  (name, if name.length < text.length then some (text.drop (name.length + 1)) else none)

def declare (word : String) (mark : Variable → Variable) (has : Variable → Bool)
    (args : List Octets) : Sh Nat := do
  let names ←
    match args with
    | ['-', '-'] :: rest => pure rest
    | ('-' :: 'p' :: _) :: _ => pure []
    | ('-' :: c :: _) :: _ => Sh.fail ("Illegal option -".toList ++ [c])
    | args => pure args
  if names.isEmpty then showVariables word.toList has
  else
    for arg in names do
      let (name, value) := splitAssignment arg
      match value with
      | some v => Sh.assign name v
      | none => if !isName name then Sh.failFor name "bad variable name"
      modify fun s => s.putVariable name (mark ((s.find? name).getD ⟨none, s.has .allexport, false⟩))
    return 0

def exportVariables (args : List Octets) : Sh Nat :=
  declare "export" (fun v => { v with exported := true }) (·.exported) args

def protectVariables (args : List Octets) : Sh Nat :=
  declare "readonly" (fun v => { v with readonly := true }) (·.readonly) args

/-- Variables that every shell knows, even without a value. -/
def knownVariables : List Octets :=
  ["IFS", "MAIL", "MAILPATH", "PATH", "PS1", "PS2", "PS4", "OPTIND"].map String.toList

/-- Takes the value from a variable. The shell goes on to know some variables, and those that a
command has for itself. -/
def withoutValue (s : State) (name : Octets) : State :=
  let isKept := knownVariables.contains name ||
    s.frames.any fun f => f.bindings.any fun e => e.1 == name
  match s.find? name with
  | some v => if isKept then s.putVariable name { v with value := none } else s.dropVariable name
  | none => s

def unsetVariable (text : Octets) : Sh Unit := do
  let (name, _) := splitAssignment text
  if !isName name then Sh.failFor name "bad variable name"
  if (← get).isReadonly name then Sh.failFor name "is read only"
  if name == "OPTIND".toList then Sh.illegalNumber []
  modify fun s => (withoutValue s name).afterChange name

def unset (args : List Octets) : Sh Nat := do
  let (options, args) ← parted "vf" args
  let ofFunctions := (options.getLast?.map (·.1)) == some 'f'
  for name in args do
    if ofFunctions then
      modify fun s => { s with functions := s.functions.filter fun f => f.1 != name }
    else unsetVariable name
  return 0

def localVariables (args : List Octets) : Sh Nat := do
  if (← get).frames.isEmpty then Sh.failText "not in a function"
  for arg in args do
    if arg == ['-'] then Sh.keepFlags
    else
      let (name, value) := splitAssignment arg
      Sh.makeLocal name value false
  return 0

def setFlag (f : Flag) (on : Bool) : Sh Unit := do
  modify fun s => s.setFlag f on
  if on then
    match f with
    | .vi => modify fun s => s.setFlag .emacs false
    | .emacs => modify fun s => s.setFlag .vi false
    | .monitor =>
      Sh.warn "can't access tty; job control turned off"
      modify fun s => s.setFlag .monitor false
    | _ => return

/-- Shows the options, or with `asCommands` the commands that set them so. -/
def showFlags (asCommands : Bool) : Sh Unit := do
  let s ← get
  if !asCommands then Sh.printText "Current option settings\n"
  for (f, name, _) in flagTable do
    if asCommands then
      Sh.printText ("set " ++ (if s.has f then "-o " else "+o ") ++ name ++ "\n")
    else
      let gap := String.ofList (List.replicate (16 - name.length) ' ')
      Sh.printText (name ++ gap ++ (if s.has f then "on" else "off") ++ "\n")

def setNamed (name : Option Octets) (on : Bool) : Sh Unit := do
  match name with
  | none => showFlags !on
  | some name =>
    match flagTable.find? fun e => e.2.1.toList == name with
    | some (f, _, _) => setFlag f on
    | none => Sh.fail ("Illegal option -o ".toList ++ name)

def flagOf? (letter : Char) : Option Flag :=
  (flagTable.find? fun e => e.2.2 == some letter).map (·.1)

/-- Sets the options of one word; what is left of the other arguments. -/
def setLetters (on : Bool) : Octets → List Octets → Sh (List Octets)
  | [], args => return args
  | 'o' :: cs, args => do
    setNamed args.head? on
    setLetters on cs args.tail
  | c :: cs, args => do
    match flagOf? c with
    | some f => setFlag f on
    | none => Sh.fail ("Illegal option -".toList ++ [c])
    setLetters on cs args

def setArguments (args : List Octets) : Sh Unit :=
  modify fun s => { s with args, optionIndex := 1, optionOffset := none }

/-- Sets options; what is left are new arguments, if there are any. -/
def setOptions : (steps : Nat) → List Octets → Sh (List Octets)
  | 0, args => return args
  | steps + 1, args => do
    match args with
    | ['-'] :: rest =>
      modify fun s => (s.setFlag .xtrace false).setFlag .verbose false
      return rest
    | ['-', '-'] :: rest =>
      if rest.isEmpty then setArguments []
      return rest
    | ('-' :: letters) :: rest => setOptions steps (← setLetters true letters rest)
    | ('+' :: letters) :: rest => setOptions steps (← setLetters false letters rest)
    | args => return args

def setCommand (args : List Octets) : Sh Nat := do
  if args.isEmpty then showVariables [] (·.value.isSome)
  else
    let rest ← setOptions (args.length + 1) args
    if !rest.isEmpty then setArguments rest
    return 0

def shift (args : List Octets) : Sh Nat := do
  let n ←
    match args with
    | [] => pure 1
    | a :: _ => Sh.number a
  let s ← get
  if s.args.length < n then Sh.failText "can't shift that many"
  setArguments (s.args.drop n)
  return 0

structure Line where
  outcome : Outcome := {}
  start : Nat := 0
  /-- Where a backslash stood, if the last character was one. -/
  escape : Option Nat := none
  isComplete : Bool := false

/-- Takes a character of a line. A backslash lets the next one count as it is, or joins lines. -/
def Line.take (raw : Bool) (l : Line) (c : Char) : Line :=
  if l.isComplete || c == '\x00' then l
  else
    match l.escape with
    | some place =>
      let o := if c == '\n' then l.outcome else l.outcome.add (.plain c)
      let o := { o with regions := o.regions.push ⟨l.start, place, false⟩ }
      { l with outcome := o, start := o.cells.size, escape := none }
    | none =>
      if c == '\\' && !raw then { l with escape := some l.outcome.cells.size }
      else if c == '\n' then { l with isComplete := true }
      else { l with outcome := l.outcome.add (.plain c) }

def readLine (raw : Bool) : (steps : Nat) → Line → Sh Line
  | 0, l => return l
  | steps + 1, l => do
    match ← Sh.proc (Proc.readThrough 0 '\n') with
    | .ok (c :: cs) =>
      let l := (c :: cs).foldl (Line.take raw) l
      if l.isComplete then return l else readLine raw steps l
    | _ => return l

/-- Gives fields to names; names without a field get nothing. -/
def assignFields : List Octets → List (List Cell) → Sh Unit
  | [], _ => return
  | name :: names, fields => do
    Sh.assign name (textOf (fields.headD []))
    assignFields names fields.tail

def read (args : List Octets) : Sh Nat := do
  let (options, names) ← parted "p:r" args
  if names.isEmpty then Sh.failText "arg count"
  let raw := options.any (·.1 == 'r')
  let l ← readLine raw Sh.manyReads {}
  let o := l.outcome.record l.start false
  assignFields names (o.fields (← get).separators (some names.length))
  return if l.isComplete then 0 else 1

structure OptionStep where
  /-- What the variable gets. -/
  letter : Char
  /-- What `OPTARG` gets; nothing if it loses its value. -/
  argument : Option (Option Octets) := none
  complaint : Option String := none
  /-- The next argument, and how far it is in the one before. -/
  index : Nat
  offset : Option Nat := none
  isEnd : Bool := false

def optionStep (wanted : Octets) (args : List Octets) (index : Nat) (offset : Option Nat) :
    OptionStep :=
  let quiet := wanted.head? == some ':'
  let inside : Octets :=
    match offset with
    | some n => if index ≤ 1 then [] else (args.getD (index - 2) []).drop n
    | none => []
  let step (c : Char) (rest : Octets) (index : Nat) : OptionStep :=
    let offset := some ((args.getD (index - 2) []).length - rest.length)
    match takesArgument? c wanted with
    | none =>
      if quiet then ⟨'?', some (some [c]), none, index, offset, false⟩
      else ⟨'?', some none, some ("Illegal option -" ++ String.ofList [c]), index, offset, false⟩
    | some false => ⟨c, some (some []), none, index, offset, false⟩
    | some true =>
      if !rest.isEmpty then ⟨c, some (some rest), none, index, none, false⟩
      else
        match args[index - 1]? with
        | some arg => ⟨c, some (some arg), none, index + 1, none, false⟩
        | none =>
          if quiet then ⟨':', some (some [c]), none, index, none, false⟩
          else
            ⟨'?', some none, some ("No arg for -" ++ String.ofList [c] ++ " option"), index, none,
              false⟩
  match inside with
  | c :: rest => step c rest index
  | [] =>
    match args[index - 1]? with
    | some ['-', '-'] => ⟨'?', none, none, index + 1, none, true⟩
    | some ('-' :: c :: rest) => step c rest (index + 1)
    | _ => ⟨'?', none, none, index, none, true⟩

def getopts (args : List Octets) : Sh Nat := do
  match args with
  | wanted :: name :: rest =>
    let s ← get
    let list := if rest.isEmpty then s.args else rest
    let isPast := s.optionIndex == 0 || list.length + 1 < s.optionIndex
    set { s with optionIndex := 0 }
    let index := if isPast then 1 else s.optionIndex
    let offset := if isPast then none else s.optionOffset
    let r := optionStep wanted list index offset
    match r.complaint with
    | some c => Sh.report (c.toList ++ ['\n'])
    | none => pure ()
    match r.argument with
    | some (some text) => Sh.assign "OPTARG".toList text
    | some none => unsetVariable "OPTARG".toList
    | none => pure ()
    Sh.assign "OPTIND".toList (Octets.ofNat r.index)
    modify fun s => { s with optionIndex := 0 }
    Sh.assign name [r.letter]
    modify fun s => { s with optionIndex := r.index, optionOffset := r.offset }
    return if r.isEnd then 1 else 0
  | _ => Sh.failText "Usage: getopts optstring var [arg...]"

end LintRelay.Shell.Builtin

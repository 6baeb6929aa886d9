import LintRelay.Date.Description
import LintRelay.Tool.Session
/-! `touch` creates files that are not there, and notes a time at which files were changed. -/
namespace LintRelay.Tool.Touch

open Process

inductive Choice where
  | accessed
  | noCreate
  | date
  | idle
  | noFollow
  | changed
  | reference
  | stamp
  | time
  | help
  | version
  deriving DecidableEq, Repr

def options : Options Choice where
  letters := [('a', .accessed, .nothing), ('c', .noCreate, .nothing), ('d', .date, .required),
    ('f', .idle, .nothing), ('h', .noFollow, .nothing), ('m', .changed, .nothing),
    ('r', .reference, .required), ('t', .stamp, .required)]
  words := [("time", .time, .required), ("no-create", .noCreate, .nothing),
    ("date", .date, .required), ("reference", .reference, .required),
    ("no-dereference", .noFollow, .nothing), ("help", .help, .nothing),
    ("version", .version, .nothing)]

/-- Whether a word stands for the time of the last change; the other one is that of the last
access. -/
def timeWords : List (String × Bool) :=
  [("atime", false), ("access", false), ("use", false), ("mtime", true), ("modify", true)]

/-- The time that a word stands for, which may be cut short where it stays clear. -/
def timeNamed (word : Octets) : Use Bool := do
  let exact := timeWords.filter fun e => e.1.toList == word
  let begun :=
    if exact.isEmpty then timeWords.filter fun e => word.isPrefixOf e.1.toList else exact
  match (begun.map (·.2)).eraseDups with
  | [isChange] => return isChange
  | found =>
    let kind := if found.isEmpty then "invalid" else "ambiguous"
    Use.misuse (kind.toList ++ " argument ".toList ++ Quote.forReader word ++ " for ".toList ++
      Quote.forReader "--time".toList ++ "\nValid arguments are:\n  - ".toList ++
      Octets.join ", ".toList (["atime", "access", "use"].map fun w => Quote.forReader w.toList) ++
      "\n  - ".toList ++
      Octets.join ", ".toList (["mtime", "modify"].map fun w => Quote.forReader w.toList))

def invalidDate (α : Type) (text : Octets) : Use α :=
  Use.die ("invalid date format ".toList ++ Quote.forReader text)

/-- Sets the time of a file, which is created first if it may be. -/
def touchFile (create isSilent : Bool) (time : Option Int) (file : Octets) : Use Unit := do
  if file == ['-'] then
    match ← Use.proc (Proc.infoOf 1) with
    | .ok _ => return
    | .error e => if create then Use.blameFor "setting times of '-'".toList e
  else
    let opened ←
      if create then Use.proc (Proc.openFile file { writes := true, creates := true })
      else pure (Except.error .isDirectory)
    match ← Use.call (.stamp file time), opened with
    | .failed e, .error why =>
      if why != .isDirectory then
        Use.blameFor ("cannot touch ".toList ++ Quote.always file) why
      else if !isSilent || e != .noEntry then
        Use.blameFor ("setting times of ".toList ++ Quote.always file) e
    | _, .ok fd => Use.proc (Proc.close fd)
    | _, _ => return

def timeOf (file : Octets) : Use Int := do
  match ← Use.proc (Proc.info file) with
  | .ok i => return i.changed
  | .error e =>
    Use.die ("failed to get attributes of ".toList ++ Quote.always file ++ ": ".toList ++
      Octets.ofString e.reason)

def run (args : List Octets) : Use Unit := do
  let given ← Use.arguments options args
  let zone := ((← Use.environment? "TZ").map Date.Zone.ofSetting).getD .utc
  let now ← Use.proc Proc.now
  let mut stamp : Option Int := none
  let mut changes := false
  let mut accesses := false
  for (o, value) in given.options do
    match o with
    | .stamp =>
      match Date.stampedTime? zone now value with
      | some t => stamp := some t
      | none => invalidDate Unit value
    | .time => if ← timeNamed value then changes := true else accesses := true
    | .changed => changes := true
    | .accessed => accesses := true
    | _ => pure ()
  if let some fault := given.fault then Use.misuse fault
  let has (o : Choice) : Bool := given.options.any (·.1 == o)
  let value? (o : Choice) : Option Octets := (given.options.filter (·.1 == o)).getLast?.map (·.2)
  if stamp.isSome && (has .reference || has .date) then
    Use.misuse "cannot specify times from more than one source".toList
  let reference ← (value? .reference).mapM timeOf
  let time ←
    match value? .date with
    | some text =>
      match Date.describedTime? zone (reference.getD now) text with
      | some t => pure (some t)
      | none => invalidDate (Option Int) text
    | none => pure (reference <|> stamp)
  if given.operands.isEmpty then Use.misuse "missing file operand".toList
  let create := !(has .noCreate || has .noFollow)
  for file in given.operands do
    let time ←
      if accesses && !changes then do
        pure ((← Use.proc (Proc.info file)).toOption.map (·.changed))
      else pure time
    touchFile create (has .noCreate) time file

end LintRelay.Tool.Touch

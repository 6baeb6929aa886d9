import LintRelay.Tool.Session
/-! `basename` prints the last names of paths, without an ending if one is given. -/
namespace LintRelay.Tool.Basename

inductive Choice where
  | several
  | ending
  | zero
  | help
  | version
  deriving DecidableEq, Repr

def options : Options Choice where
  letters := [('a', .several, .nothing), ('s', .ending, .required), ('z', .zero, .nothing)]
  words := [("multiple", .several, .nothing), ("suffix", .ending, .required),
    ("zero", .zero, .nothing), ("help", .help, .nothing), ("version", .version, .nothing)]
  inOrder := true

/-- The last name of a path. A path of slashes alone is one slash. -/
def lastName (path : Octets) : Octets :=
  let trimmed := (path.reverse.dropWhile (· == '/')).reverse
  if trimmed.isEmpty then path.take 1 else (trimmed.reverse.takeWhile (· != '/')).reverse

/-- Takes an ending off a name, unless nothing would be left. -/
def withoutEnding (ending name : Octets) : Octets :=
  if name.head? == some '/' then name
  else
    match Octets.dropEnd? name ending with
    | some [] | none => name
    | some short => short

def run (args : List Octets) : Use Unit := do
  let given ← Use.arguments options args
  if let some fault := given.fault then Use.misuse fault
  let has (o : Choice) : Bool := given.options.any (·.1 == o)
  let ending? := (given.options.filter (·.1 == .ending)).getLast?.map (·.2)
  let finish : Octets := if has .zero then ['\x00'] else ['\n']
  if given.operands.isEmpty then Use.misuse "missing operand".toList
  if has .several || ending?.isSome then
    for path in given.operands do
      Use.say (withoutEnding (ending?.getD []) (lastName path) ++ finish)
  else
    if let some extra := given.operands[2]? then
      Use.misuse ("extra operand ".toList ++ Quote.forReader extra)
    Use.say (withoutEnding (given.operands.getD 1 []) (lastName (given.operands.getD 0 [])) ++ finish)

end LintRelay.Tool.Basename

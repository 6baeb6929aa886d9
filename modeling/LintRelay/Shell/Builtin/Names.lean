import LintRelay.Shell.Builtin.Variables
import LintRelay.Shell.Lookup
import LintRelay.Shell.Reader
/-! Commands on names: other words for commands, what a name stands for, and where programs were
found. -/
namespace LintRelay.Shell.Builtin

open Process

/-- The place of a name in a table of some size. Tables are listed in this order. -/
def tablePlace (size : Nat) (name : Octets) : Nat :=
  ((name.headD '\x00').toNat * 16 + (name.map Char.toNat).foldl (· + ·) 0) % size

def inTableOrder (size : Nat) (entries : List (Octets × Octets)) : List (Octets × Octets) :=
  entries.mergeSort fun a b => tablePlace size a.1 ≤ tablePlace size b.1

def aliasLine (e : Octets × Octets) : Octets := e.1 ++ '=' :: quote e.2 ++ ['\n']

def setAlias (s : State) (name text : Octets) : State :=
  if (s.aliases.lookup name).isSome then
    { s with aliases := s.aliases.map fun e => if e.1 == name then (name, text) else e }
  else { s with aliases := s.aliases ++ [(name, text)] }

def setAliases (args : List Octets) : Sh Nat := do
  if args.isEmpty then
    for e in inTableOrder 39 (← get).aliases do Sh.print (aliasLine e)
    return 0
  let mut status := 0
  for arg in args do
    -- An equals sign at the very start belongs to the name.
    let tail := arg.drop 1
    if tail.contains '=' then
      let name := arg.take 1 ++ tail.takeWhile (· != '=')
      modify fun s => setAlias s name (arg.drop (name.length + 1))
    else
      match (← get).aliases.lookup arg with
      | some text => Sh.print (aliasLine (arg, text))
      | none =>
        Sh.report ("alias: ".toList ++ arg ++ " not found\n".toList)
        status := 1
  return status

def unalias (args : List Octets) : Sh Nat := do
  let (options, args) ← parted "a" args
  if !options.isEmpty then
    modify fun s => { s with aliases := [] }
    return 0
  let mut status := 0
  for arg in args do
    if ((← get).aliases.lookup arg).isSome then
      modify fun s => { s with aliases := s.aliases.filter fun e => e.1 != arg }
    else
      Sh.report ("unalias: ".toList ++ arg ++ " not found\n".toList)
      status := 1
  return status

def describe (name : Octets) (path : Option Octets) (inWords : Bool) : Sh Nat := do
  let s ← get
  let say (sentence brief : Octets) : Sh Nat := do
    Sh.print ((if inWords then name ++ sentence else brief) ++ ['\n'])
    return 0
  let missing : Sh Nat := do
    if inWords then Sh.print (name ++ ": not found\n".toList)
    return 127
  if (Keyword.ofText? name).isSome then say " is a shell keyword".toList name
  else
    match s.aliases.lookup name with
    | some text =>
      say (" is an alias for ".toList ++ text)
        ("alias ".toList ++ name ++ '=' :: quote text)
    | none =>
      let isTracked := path.isNone && (s.hashed.lookup name).isSome
      match ← Lookup.find name true path with
      | .builtin b =>
        say (" is a ".toList ++ (if b.special then "special " else "").toList ++
          "shell builtin".toList) name
      | .function _ => say " is a shell function".toList name
      | .program (some full) =>
        say ((if isTracked then " is a tracked alias for " else " is ").toList ++ full) full
      | .program none =>
        match ← Sh.proc (Proc.info name) with
        | .ok _ => say (" is ".toList ++ name) name
        | .error _ => missing
      | .nothing _ => missing

def type (args : List Octets) : Sh Nat := do
  let mut status := 0
  for arg in args do
    status := status ||| (← describe arg none true)
  return status

def describeCommand (args : List Octets) : Sh Nat := do
  let (options, args) ← parted "pvV" args
  let asked (c : Char) : Bool := options.any (·.1 == c)
  match args with
  | [] => return 0
  | name :: _ =>
    if asked 'v' || asked 'V' then
      describe name (if asked 'p' then some systemPath else none) (asked 'V')
    else return 0

def hash (args : List Octets) : Sh Nat := do
  let (options, args) ← parted "r" args
  if !options.isEmpty then
    modify fun s => { s with hashed := [] }
    return 0
  if args.isEmpty then
    for e in inTableOrder 31 (← get).hashed do Sh.print (e.2 ++ ['\n'])
    return 0
  let mut status := 0
  for arg in args do
    modify fun s => { s with hashed := s.hashed.filter fun e => e.1 != arg }
    match ← Lookup.find arg true none with
    | .nothing e =>
      Sh.complain (arg ++ ": ".toList ++ (Lookup.reason e).toList)
      status := 1
    | _ => pure ()
  return status

end LintRelay.Shell.Builtin

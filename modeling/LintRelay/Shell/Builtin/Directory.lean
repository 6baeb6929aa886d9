import LintRelay.Shell.Builtin.Options
import LintRelay.Shell.Lookup
/-! Commands on the directory that a shell is in, and on what new files allow. -/
namespace LintRelay.Shell.Builtin

open Process

def walk (soFar : List Octets) : List Octets → List Octets
  | [] => soFar
  | [] :: rest => walk soFar rest
  | ['.'] :: rest => walk soFar rest
  | ['.', '.'] :: rest => walk soFar.dropLast rest
  | name :: rest => walk (soFar ++ [name]) rest

/-- The path that leads from a directory along another path, without dots. Two slashes at the start
are kept. -/
def joined (directory path : Octets) : Octets :=
  let whole :=
    if path.head? == some '/' then path
    else if directory.getLast? == some '/' then directory ++ path
    else directory ++ '/' :: path
  let isDouble := "//".toList.isPrefixOf whole && (whole[2]?) != some '/'
  let start := if isDouble then "//".toList else ['/']
  start ++ Octets.join ['/'] (walk [] (whole.splitOn '/'))

def physicalDirectory : Sh Octets := do
  match ← Sh.call .place with
  | .place l => return '/' :: Octets.join ['/'] (l.map octets)
  | _ => return []

def setDirectory (path : Octets) (keepsOld : Bool) : Sh Unit := do
  let old := (← get).directory
  if keepsOld then Sh.assign "OLDPWD".toList old true
  modify fun s => { s with directory := path }
  Sh.assign "PWD".toList path true

def enterDirectory (path : Octets) (physical : Bool) : Sh Bool := do
  let logical := joined (← get).directory path
  match ← Sh.proc (Proc.attempt (.enter (if physical then path else logical))) with
  | .error _ => return false
  | .ok _ =>
    setDirectory (← if physical then physicalDirectory else pure logical) true
    -- What was found in directories with relative names may be something else now.
    modify fun s => { s with hashed := s.hashed.filter fun e => e.2.head? == some '/' }
    return true

def startsWithDots (path : Octets) : Bool :=
  let first := path.takeWhile (· != '/')
  first == ['.'] || first == ['.', '.']

/-- The first of some directories below which a path is a directory; whether it is to be shown. -/
def findBelow (path : Octets) : List Octets → Sh (Option (Octets × Bool))
  | [] => return none
  | d :: rest => do
    let full := within d path
    match ← Sh.proc (Proc.info full) with
    | .ok i => if i.kind == .directory then return some (full, !d.isEmpty) else findBelow path rest
    | .error _ => findBelow path rest

def changeDirectory (args : List Octets) : Sh Nat := do
  let (options, args) ← parted "LP" args
  let physical := (options.getLast?.map (·.1)) == some 'P'
  let s ← get
  let (target, shows) :=
    match args with
    | [] => ((s.text? "HOME").getD [], false)
    | ['-'] :: _ => ((s.text? "OLDPWD").getD [], true)
    | a :: _ => (a, false)
  let isFixed := target.head? == some '/' || startsWithDots target
  let target := if target.isEmpty then ['.'] else target
  let below ←
    match s.text? "CDPATH" with
    | some path => if isFixed then pure none else findBelow target (directories path)
    | none => pure none
  let (path, shows) :=
    match below with
    | some (full, isElsewhere) => (full, shows || isElsewhere)
    | none => (target, shows)
  if !(← enterDirectory path physical) then Sh.fail ("can't cd to ".toList ++ target)
  if shows then Sh.print ((← get).directory ++ ['\n'])
  return 0

def printDirectory (args : List Octets) : Sh Nat := do
  let (options, _) ← parted "LP" args
  let path ←
    if (options.getLast?.map (·.1)) == some 'P' then physicalDirectory
    else pure (← get).directory
  Sh.print (path ++ ['\n'])
  return 0

def allowedLetters (n : Nat) : Octets :=
  (if n &&& 4 != 0 then ['r'] else []) ++ (if n &&& 2 != 0 then ['w'] else []) ++
    (if n &&& 1 != 0 then ['x'] else [])

/-- The kinds of users that letters stand for, each as the lowest bit of its permissions. -/
def userBits (who : Octets) : Nat :=
  if who.isEmpty then 73
  else
    who.foldl (fun n c => n ||| (match c with | 'u' => 64 | 'g' => 8 | 'o' => 1 | _ => 73)) 0

/-- The permissions that letters stand for. Letters for users stand for what those are allowed. -/
def permissionBits (allowed : Nat) (what : Octets) : Nat :=
  what.foldl (fun n c =>
    n ||| (match c with
      | 'r' => 4
      | 'w' => 2
      | 'x' => 1
      | 'u' => allowed / 64 % 8
      | 'g' => allowed / 8 % 8
      | 'o' => allowed % 8
      | 'X' => if allowed &&& 73 == 0 then 0 else 1
      | _ => 0)) 0

/-- Changes permissions as a text says: for some users, signs with letters behind them, and the same
after commas. The letters refer to what was allowed before all changes. -/
def changed? (before : Nat) : (steps : Nat) → (users allowed : Nat) → Octets → Option Nat
  | 0, _, _, _ => none
  | _, _, allowed, [] => some allowed
  | steps + 1, users, allowed, text => do
    let who := text.takeWhile fun c => "augo".toList.contains c
    let users := if who.isEmpty && users != 0 then users else users ||| userBits who
    match text.drop who.length with
    | [] => none
    | sign :: rest =>
      let what := rest.takeWhile fun c => "rwxugoXs".toList.contains c
      let bits := permissionBits before what * users
      let allowed ←
        match sign with
        | '+' => some (allowed ||| bits)
        | '-' => some (allowed &&& (511 - bits))
        | '=' => some ((allowed &&& (511 - 7 * users)) ||| bits)
        | _ => none
      match rest.drop what.length with
      | [] => some allowed
      | ',' :: more => changed? before steps 0 allowed more
      | c :: more =>
        if "=+-".toList.contains c then changed? before steps users allowed (c :: more) else none

def maskNow : Sh Nat := do
  match ← Sh.call (.mask none) with
  | .number n => return n
  | _ => return 0

def changeMask (args : List Octets) : Sh Nat := do
  let (options, args) ← parted "S" args
  let mask ← maskNow
  match args with
  | [] =>
    let group (n : Nat) : Nat := 7 - (mask / n) % 8
    if options.isEmpty then
      let digit (n : Nat) : Char := Char.ofNat (48 + (mask / n) % 8)
      Sh.print ['0', digit 64, digit 8, digit 1, '\n']
    else
      Sh.print ("u=".toList ++ allowedLetters (group 64) ++ ",g=".toList ++
        allowedLetters (group 8) ++ ",o=".toList ++ allowedLetters (group 1) ++ ['\n'])
    return 0
  | text :: _ =>
    if (text.headD 'x').isDigit then
      if text.any fun c => !('0' ≤ c && c ≤ '7') then Sh.illegalNumber text
      let _ ← Sh.call (.mask (some (Format.valueOf 8 text % 512)))
    else
      match changed? (511 - mask) (text.length + 1) 0 (511 - mask) text with
      | some allowed => let _ ← Sh.call (.mask (some (511 - allowed)))
      | none => Sh.fail ("Illegal mode: ".toList ++ text)
    return 0

end LintRelay.Shell.Builtin

import LintRelay.Tool.Number
import LintRelay.Tool.Session
/-! `head` prints the first lines or characters of files, or all but the last ones. -/
namespace LintRelay.Tool.Head

open Process

inductive Choice where
  | characters
  | lines
  | quiet
  | verbose
  | zero
  | digit (c : Char)
  | pipe
  | help
  | version
  deriving DecidableEq, Repr

def options : Options Choice where
  letters := [('c', .characters, .required), ('n', .lines, .required), ('q', .quiet, .nothing),
    ('v', .verbose, .nothing), ('z', .zero, .nothing)] ++
    "0123456789".toList.map fun c => (c, .digit c, .nothing)
  words := [("bytes", .characters, .required), ("lines", .lines, .required),
    ("-presume-input-pipe", .pipe, .nothing), ("quiet", .quiet, .nothing),
    ("silent", .quiet, .nothing), ("verbose", .verbose, .nothing),
    ("zero-terminated", .zero, .nothing), ("help", .help, .nothing),
    ("version", .version, .nothing)]

structure Wish where
  lines : Bool := true
  /-- Whether the last ones are left out instead of the first ones printed. -/
  butLast : Bool := false
  count : Nat := 10
  /-- Whether the names of the files are printed, if not only when there are several. -/
  headers : Option Bool := none
  last : Char := '\n'

def unitName (lines : Bool) : Octets :=
  (if lines then "invalid number of lines: " else "invalid number of bytes: ").toList

def tooLarge {α : Type} (lines : Bool) (text : Octets) : Use α :=
  Use.die (unitName lines ++ Quote.forReader text ++
    ": Value too large for defined data type".toList)

def maxOffset : Nat := Nat.pow 2 63 - 1

def readAmount (lines : Bool) (text : Octets) : Use Nat :=
  match readCount text with
  | .ok n => return n
  | .error .malformed => Use.die (unitName lines ++ Quote.forReader text)
  | .error .tooLarge => tooLarge lines text

def badLetter {α : Type} (c : Char) : Use α :=
  Use.misuse ("invalid trailing option -- ".toList ++ [c])

/-- The letters after a number that stands directly behind the dash, and the unit that they give. -/
def trailing (w : Wish) (unit : Octets) : Octets → Use (Wish × Octets)
  | [] => return (w, unit)
  | 'c' :: cs => trailing { w with lines := false } [] cs
  | 'l' :: cs => trailing { w with lines := true } unit cs
  | 'q' :: cs => trailing { w with headers := some false } unit cs
  | 'v' :: cs => trailing { w with headers := some true } unit cs
  | 'z' :: cs => trailing { w with last := '\x00' } unit cs
  | c :: cs =>
    if c == 'b' || c == 'k' || c == 'm' then trailing { w with lines := false } [c] cs
    else badLetter c

/-- A first argument that is a dash with a number. -/
def leadingNumber (args : List Octets) : Use (Wish × List Octets) :=
  match args with
  | ('-' :: text) :: rest =>
    let digits := text.takeWhile Char.isDigit
    if digits.isEmpty then return ({}, args)
    else do
      let (w, unit) ← trailing {} [] (text.drop digits.length)
      return ({ w with count := ← readAmount w.lines (digits ++ unit) }, rest)
  | _ => return ({}, args)

def setAmount (w : Wish) (lines : Bool) (text : Octets) : Use Wish := do
  let butLast := text.head? == some '-'
  let count ← readAmount lines (if butLast then text.tail else text)
  return { w with lines, butLast, count }

def applyChoices : Wish → List (Choice × Octets) → Use Wish
  | w, [] => return w
  | w, (o, value) :: rest => do
    match o with
    | .characters => applyChoices (← setAmount w false value) rest
    | .lines => applyChoices (← setAmount w true value) rest
    | .quiet => applyChoices { w with headers := some false } rest
    | .verbose => applyChoices { w with headers := some true } rest
    | .zero => applyChoices { w with last := '\x00' } rest
    | .digit c => badLetter c
    | .pipe => applyChoices w rest
    | .help | .version => Use.exit 0

def blockSize : Nat := 8192

def put (text : Octets) : Use Unit := do
  if let some e ← Use.tryToSay text then
    modify fun s => { s with failed := false }
    Use.die ("error writing 'standard output': ".toList ++ Octets.ofString e.reason)

def readTrouble (name : Octets) (e : IoError) : Use Unit :=
  Use.blameFor ("error reading ".toList ++ Quote.always name) e

def firstCharacters (name : Octets) (fd : Nat) : (steps : Nat) → (count : Nat) → Use Unit
  | 0, _ => return
  | steps + 1, count => do
    if count == 0 then return
    match ← Use.proc (Proc.read fd (min count blockSize)) with
    | .error e => readTrouble name e
    | .ok [] => return
    | .ok text =>
      put text
      firstCharacters name fd steps (count - text.length)

/-- How much of a text its first lines take up, and how many lines are missing. -/
def linesLength (last : Char) (length : Nat) : (count : Nat) → Octets → Nat × Nat
  | 0, _ => (length, 0)
  | count, [] => (length, count)
  | count + 1, c :: cs =>
    if c == last then linesLength last (length + 1) count cs
    else linesLength last (length + 1) (count + 1) cs

/-- Prints the first lines. What was read beyond them is given back, if that is possible. -/
def firstLines (last : Char) (name : Octets) (fd : Nat) : (steps : Nat) → (count : Nat) → Use Unit
  | 0, _ => return
  | steps + 1, count => do
    if count == 0 then return
    match ← Use.proc (Proc.read fd blockSize) with
    | .error e => readTrouble name e
    | .ok [] => return
    | .ok text =>
      let (length, missing) := linesLength last 0 count text
      put (text.take length)
      if missing == 0 then let _ ← Use.call (.move fd (length - text.length))
      else firstLines last name fd steps missing

/-- The length of a text without its last lines. A line without an end counts too. -/
def withoutLines (last : Char) (count : Nat) (text : Octets) : Nat :=
  let lines := text.count last + (if text.getLast?.any (· != last) then 1 else 0)
  if count == 0 then text.length else (linesLength last 0 (lines - count) text).1

def allButLast (w : Wish) (name : Octets) (fd : Nat) : Use Unit := do
  match ← Use.proc (Proc.infoOf fd) with
  | .error e => Use.blameFor ("cannot fstat ".toList ++ Quote.always name) e
  | .ok _ =>
    let (trouble, pieces) ←
      Use.eachPiece fd blockSize (fun pieces text => return text :: pieces) maxPieces
        ([] : List Octets)
    match trouble with
    | some e => readTrouble name e
    | none =>
      let text := pieces.reverse.flatten
      let length := if w.lines then withoutLines w.last w.count text else text.length - w.count
      put (text.take length)
      let _ ← Use.call (.move fd (length - text.length))

def printFile (w : Wish) (name : Octets) (fd : Nat) : Use Unit :=
  if w.butLast then allButLast w name fd
  else if w.lines then firstLines w.last name fd maxPieces w.count
  else firstCharacters name fd maxPieces w.count

def header (isFirst : Bool) (name : Octets) : Octets :=
  (if isFirst then [] else ['\n']) ++ "==> ".toList ++ name ++ " <==\n".toList

def printFiles (w : Wish) (headers : Bool) : (isFirst : Bool) → List Octets → Use Unit
  | _, [] => return
  | isFirst, file :: rest => do
    let isInput := file == ['-']
    let opened ←
      if isInput then pure (Except.ok 0) else Use.proc (Proc.openFile file { reads := true })
    match opened with
    | .error e =>
      Use.blameFor ("cannot open ".toList ++ Quote.always file ++ " for reading".toList) e
      printFiles w headers isFirst rest
    | .ok fd =>
      let name := if isInput then "standard input".toList else file
      if headers then Use.say (header isFirst name)
      printFile w name fd
      if !isInput then Use.proc (Proc.close fd)
      printFiles w headers (isFirst && !headers) rest

def run (args : List Octets) : Use Unit := do
  let (w, args) ← leadingNumber args
  let given ← Use.arguments options args
  let w ← applyChoices w given.options
  if let some fault := given.fault then Use.misuse fault
  if !w.lines && w.butLast && maxOffset < w.count then
    tooLarge false (Octets.ofNat w.count)
  let files := if given.operands.isEmpty then [['-']] else given.operands
  printFiles w (w.headers.getD (1 < files.length)) true files
  if files.contains ['-'] then
    if let .failed e ← Use.call (.close 0) then
      Use.die ("-: ".toList ++ Octets.ofString e.reason)

end LintRelay.Tool.Head

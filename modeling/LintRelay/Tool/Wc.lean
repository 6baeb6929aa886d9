import LintRelay.Tool.Session
/-! `wc` counts lines, words and characters, and measures the longest line. -/
namespace LintRelay.Tool.Wc

open Process

inductive Choice where
  | bytes
  | characters
  | lines
  | words
  | longest
  | debug
  | list
  | help
  | version
  deriving DecidableEq, Repr

def options : Options Choice where
  letters := [('c', .bytes, .nothing), ('l', .lines, .nothing), ('L', .longest, .nothing),
    ('m', .characters, .nothing), ('w', .words, .nothing)]
  words := [("bytes", .bytes, .nothing), ("chars", .characters, .nothing),
    ("lines", .lines, .nothing), ("words", .words, .nothing), ("debug", .debug, .nothing),
    ("files0-from", .list, .required), ("max-line-length", .longest, .nothing),
    ("help", .help, .nothing), ("version", .version, .nothing)]

structure Wish where
  lines : Bool := false
  words : Bool := false
  characters : Bool := false
  bytes : Bool := false
  longest : Bool := false
  /-- A file with the names of the files. -/
  list : Option Octets := none

def Wish.kinds (w : Wish) : Nat :=
  ([w.lines, w.words, w.characters, w.bytes, w.longest].filter id).length

/-- Whether only sizes are wanted. A character is a byte. -/
def Wish.onlySizes (w : Wish) : Bool := !w.lines && !w.words && !w.longest

structure Counts where
  lines : Nat := 0
  words : Nat := 0
  bytes : Nat := 0
  longest : Nat := 0
  /-- Where in a line the next character stands. -/
  column : Nat := 0
  inWord : Bool := false

namespace Counts

def endWord (k : Counts) : Counts :=
  { k with words := if k.inWord then k.words + 1 else k.words, inWord := false }

def endLine (k : Counts) : Counts := { k with longest := max k.longest k.column, column := 0 }

/-- Counts a character. What cannot be printed neither makes a word nor ends one. -/
def add (k : Counts) (c : Char) : Counts :=
  let k := { k with bytes := k.bytes + 1 }
  match c with
  | '\n' => ({ k with lines := k.lines + 1 } : Counts).endLine.endWord
  | '\r' | '\x0c' => k.endLine.endWord
  | '\t' => ({ k with column := k.column + 8 - k.column % 8 } : Counts).endWord
  | ' ' => ({ k with column := k.column + 1 } : Counts).endWord
  | '\x0b' => k.endWord
  | c => if isPrintable c then { k with column := k.column + 1, inWord := true } else k

/-- The sums over two files; the longest line is the longer one. -/
def plus (a b : Counts) : Counts :=
  { lines := a.lines + b.lines, words := a.words + b.words, bytes := a.bytes + b.bytes,
    longest := max a.longest b.longest }

end Counts

def applyChoices : Wish → List (Choice × Octets) → Use Wish
  | w, [] => return w
  | w, (o, value) :: rest => do
    match o with
    | .bytes => applyChoices { w with bytes := true } rest
    | .characters => applyChoices { w with characters := true } rest
    | .lines => applyChoices { w with lines := true } rest
    | .words => applyChoices { w with words := true } rest
    | .longest => applyChoices { w with longest := true } rest
    | .debug => applyChoices w rest
    | .list => applyChoices { w with list := some value } rest
    | .help | .version => Use.exit 0

/-- The counts of a file, as wide as the widest of all of them. -/
def line (w : Wish) (width : Nat) (k : Counts) (name : Option Octets) : Octets :=
  let number (n : Nat) : Octets :=
    let digits := Octets.ofNat n
    List.replicate (width - digits.length) ' ' ++ digits
  let columns := [(w.lines, k.lines), (w.words, k.words), (w.characters, k.bytes),
    (w.bytes, k.bytes), (w.longest, k.longest)]
  let shown := columns.filterMap fun (wanted, n) => if wanted then some (number n) else none
  let name :=
    match name with
    | some n => ' ' :: (if n.contains '\n' then Quote.ifNeeded n else n)
    | none => []
  Octets.join [' '] shown ++ name ++ ['\n']

def printLine (text : Octets) : Use Unit := do
  Use.say text
  let _ ← Use.flush

/-- How wide numbers are: as the sum of the sizes of the files, or seven digits at least if some
input is no file. -/
def width (w : Wish) (files : List Octets) : Use Nat := do
  if files.length == 1 && w.kinds == 1 then return 1
  let infos ← files.mapM fun file =>
    Use.proc (if file == ['-'] then Proc.infoOf 0 else Proc.info file)
  let known := infos.filterMap fun i => i.toOption
  let least := if known.any fun i => i.kind != .regular then 7 else 1
  let total := known.foldl (fun n i => if i.kind == .regular then n + i.size else n) 0
  return max least (Octets.ofNat total).length

def blockSize : Nat := 16384

def pageSize : Nat := 4096

/-- What the system tells about a file is believed if it is no whole number of pages; nothing is
read then. Otherwise all but the last part of the file is skipped. The flag tells whether the rest
has to be read. -/
def knownSize (fd : Nat) : Use (Nat × Bool) := do
  match ← Use.proc (Proc.infoOf fd), ← Use.call (.offset fd) with
  | .ok i, .number offset =>
    if i.kind != .regular then return (0, true)
    if i.size % pageSize != 0 then return (i.size - offset, false)
    let high := i.size - i.size % (pageSize + 1)
    if offset < high then
      let _ ← Use.call (.move fd high)
      return (high - offset, true)
    return (0, true)
  | _, _ => return (0, true)

def countFile (w : Wish) (fd : Nat) (name : Octets) : Use Counts := do
  let (known, unread) ← if w.onlySizes then knownSize fd else pure (0, true)
  if !unread then return { bytes := known }
  let (trouble, k) ←
    Use.eachPiece fd blockSize (fun k text => return text.foldl Counts.add k) maxPieces
      ({ bytes := known } : Counts)
  if let some e := trouble then Use.blameFor (Quote.ifNeeded name) e
  return k.endLine.endWord

/-- Counts a file and prints the counts. A file without a name is the standard input. -/
def countNamed (w : Wish) (width : Nat) (sum : Counts) (file : Option Octets) : Use Counts := do
  let isInput := file.all (· == ['-'])
  let name := file.getD "standard input".toList
  let opened ←
    if isInput then pure (Except.ok 0) else Use.proc (Proc.openFile name { reads := true })
  match opened with
  | .error e =>
    Use.blameFor (Quote.ifNeeded name) e
    return sum
  | .ok fd =>
    let k ← countFile w fd name
    printLine (line w width k file)
    if !isInput then Use.proc (Proc.close fd)
    return sum.plus k

/-- Counts files one after the other; the sums. The names may come from a list, and are numbered
there. -/
def countFiles (w : Wish) (width : Nat) : (number : Nat) → Counts → List Octets → Use Counts
  | _, sum, [] => return sum
  | number, sum, file :: rest => do
    let place :=
      match w.list with
      | some list => Quote.ifNeeded list ++ ':' :: Octets.ofNat number ++ ": ".toList
      | none => []
    if w.list == some ['-'] && file == ['-'] then
      Use.blame "when reading file names from stdin, no file name of '-' allowed".toList
      countFiles w width (number + 1) sum rest
    else if file.isEmpty then
      Use.blame (place ++ "invalid zero-length file name".toList)
      countFiles w width (number + 1) sum rest
    else countFiles w width (number + 1) (← countNamed w width sum (some file)) rest

/-- The names in a list, each ended by a null character; only at the end it may be missing. -/
def namesIn (text : Octets) : List Octets :=
  let names := Octets.splitOn '\x00' text
  if names.getLast? == some [] then names.dropLast else names

/-- Counts the files of a list. If the list is a file the names are known beforehand. -/
def countListed (w : Wish) (list : Octets) : Use (Nat × Counts × Nat) := do
  let opened ←
    if list == ['-'] then pure (Except.ok 0) else Use.proc (Proc.openFile list { reads := true })
  match opened with
  | .error e =>
    Use.die ("cannot open ".toList ++ Quote.always list ++ " for reading: ".toList ++
      Octets.ofString e.reason)
  | .ok fd =>
    let isFile := ((← Use.proc (Proc.infoOf fd)).toOption.map (·.kind)) == some .regular
    let (trouble, pieces) ←
      Use.eachPiece fd blockSize (fun pieces text => return text :: pieces) maxPieces
        ([] : List Octets)
    let names := namesIn pieces.reverse.flatten
    if isFile && trouble.isSome then
      Use.die ("cannot read file names from ".toList ++ Quote.always list)
    let width ← if isFile && !names.isEmpty then width w names else pure 1
    let sum ← countFiles w width 1 {} names
    if let some e := trouble then
      Use.blameFor (Quote.ifNeeded list ++ ": read error".toList) e
    return (width, sum, names.length)

def run (args : List Octets) : Use Unit := do
  let given ← Use.arguments options args
  let w ← applyChoices {} given.options
  if let some fault := given.fault then Use.misuse fault
  let w := if w.kinds == 0 then { w with lines := true, words := true, bytes := true } else w
  let (width, sum, count) ←
    match w.list, given.operands with
    | some _, extra :: _ =>
      Use.complain ("extra operand ".toList ++ Quote.always extra)
      Use.report "file operands cannot be combined with --files0-from\n".toList
      Use.advise
    | some list, [] => countListed w list
    | none, [] =>
      let width ← width w [['-']]
      pure (width, ← countNamed w width {} none, 1)
    | none, files =>
      let width ← width w files
      pure (width, ← countFiles w width 1 {} files, files.length)
  if 1 < count then printLine (line w width sum (some "total".toList))
  if given.operands.contains ['-'] || (w.list.isNone && given.operands.isEmpty) then
    if let .failed e ← Use.call (.close 0) then
      Use.die ("-: ".toList ++ Octets.ofString e.reason)

end LintRelay.Tool.Wc

import LintRelay.Tool.Session
/-! `cat` prints files one after the other, if asked to with numbers before the lines or with marks
for what cannot be seen. -/
namespace LintRelay.Tool.Cat

open Process

inductive Choice where
  | all
  | numberFilled
  | endsVisible
  | ends
  | number
  | squeeze
  | tabsVisible
  | tabs
  | visible
  | idle
  deriving DecidableEq, Repr

def options : Options Choice where
  letters := [('A', .all, .nothing), ('b', .numberFilled, .nothing), ('e', .endsVisible, .nothing),
    ('E', .ends, .nothing), ('n', .number, .nothing), ('s', .squeeze, .nothing),
    ('t', .tabsVisible, .nothing), ('T', .tabs, .nothing), ('u', .idle, .nothing),
    ('v', .visible, .nothing)]
  words := [("number-nonblank", .numberFilled, .nothing), ("number", .number, .nothing),
    ("squeeze-blank", .squeeze, .nothing), ("show-nonprinting", .visible, .nothing),
    ("show-ends", .ends, .nothing), ("show-tabs", .tabs, .nothing), ("show-all", .all, .nothing),
    ("help", .idle, .nothing), ("version", .idle, .nothing)]

structure View where
  number : Bool := false
  numberFilled : Bool := false
  squeeze : Bool := false
  ends : Bool := false
  tabs : Bool := false
  visible : Bool := false
  deriving DecidableEq, Repr

def View.add (v : View) : Choice → View
  | .all => { v with visible := true, ends := true, tabs := true }
  | .numberFilled => { v with number := true, numberFilled := true }
  | .endsVisible => { v with ends := true, visible := true }
  | .ends => { v with ends := true }
  | .number => { v with number := true }
  | .squeeze => { v with squeeze := true }
  | .tabsVisible => { v with tabs := true, visible := true }
  | .tabs => { v with tabs := true }
  | .visible => { v with visible := true }
  | .idle => v

/-- What is known about the lines before: where in a line the next character stands, the number of
the last line, and whether a carriage return waits for what follows it. -/
structure Progress where
  inLine : Bool := false
  /-- Empty lines in a row, at most two. -/
  empty : Nat := 0
  line : Nat := 0
  waiting : Bool := false

/-- A control character after a caret, or what it is above the ordinary ones after a mark. -/
def visibleForm (tabs : Bool) (c : Char) : Octets :=
  let n := c.toNat
  let low (n : Nat) : Octets :=
    if n < 32 then ['^', Char.ofNat (n + 64)] else if n == 127 then ['^', '?'] else [Char.ofNat n]
  if c == '\t' && !tabs then [c]
  else if n < 128 then low n
  else 'M' :: '-' :: low (n - 128)

def lineNumber (n : Nat) : Octets :=
  let digits := Octets.ofNat n
  List.replicate (6 - digits.length) ' ' ++ digits ++ ['\t']

def show? (v : View) (p : Progress) (c : Char) : Octets × Progress :=
  if c == '\n' then
    let mark : Octets := if v.ends then (if p.waiting then "^M$\n".toList else "$\n".toList) else ['\n']
    if p.inLine then (mark, { p with inLine := false, empty := 0, waiting := false })
    else if v.squeeze && 1 ≤ p.empty then ([], { p with empty := 2 })
    else
      let p := { p with empty := min 2 (p.empty + 1), waiting := false }
      if v.number && !v.numberFilled then
        (lineNumber (p.line + 1) ++ mark, { p with line := p.line + 1 })
      else (mark, p)
  else
    let before : Octets := if p.waiting then ['\r'] else []
    let p := { p with waiting := false }
    let (number, p) :=
      if v.number && !p.inLine then (lineNumber (p.line + 1), { p with line := p.line + 1 })
      else ([], p)
    let p := { p with inLine := true, empty := 0 }
    if v.visible then (before ++ number ++ visibleForm v.tabs c, p)
    else if c == '\t' && v.tabs then (before ++ number ++ ['^', 'I'], p)
    else if c == '\r' && v.ends then (before ++ number, { p with waiting := true })
    else (before ++ number ++ [c], p)

def showAll (v : View) (p : Progress) (text : Octets) : Octets × Progress :=
  if v == {} then (text, p)
  else
    let (pieces, p) := text.foldl (fun (pieces, p) c =>
      let (piece, p) := show? v p c
      (piece :: pieces, p)) (([] : List Octets), p)
    (pieces.reverse.flatten, p)

def reason (e : IoError) : Octets := Octets.ofString e.reason

/-- Writes at once; there is no point in going on if that fails. -/
def put (text : Octets) : Use Unit := do
  match ← Use.proc (Proc.write 1 text) with
  | .ok _ => return
  | .error e => Use.die ("write error: ".toList ++ reason e)

def readSize : Nat := 131072

/-- Whether reading a file would read what is written to it. -/
def feedsItself (out : FileInfo) (fd : Nat) : Use Bool := do
  match ← Use.proc (Proc.infoOf fd) with
  | .error _ => return false
  | .ok i =>
    if out.kind != .regular || i.kind != .regular || i.identity != out.identity then return false
    match ← Use.call (.offset fd) with
    | .number n => return n < i.size
    | _ => return false

def copy (v : View) (out : FileInfo) (name : Octets) (fd : Nat) (p : Progress) : Use Progress := do
  if let .error e ← Use.proc (Proc.infoOf fd) then
    Use.blameFor (Quote.ifNeeded name) e
    return p
  if ← feedsItself out fd then
    Use.blame (Quote.ifNeeded name ++ ": input file is output file".toList)
    return p
  let step (p : Progress) (text : Octets) : Use Progress := do
    let (shown, p) := showAll v p text
    put shown
    return p
  let (trouble, p) ← Use.eachPiece fd readSize step maxPieces p
  if let some e := trouble then Use.blameFor (Quote.ifNeeded name) e
  return p

def copyFiles (v : View) (out : FileInfo) : Progress → List Octets → Use Progress
  | p, [] => return p
  | p, name :: rest => do
    if name == ['-'] then copyFiles v out (← copy v out name 0 p) rest
    else
      match ← Use.proc (Proc.openFile name { reads := true }) with
      | .error e =>
        Use.blameFor (Quote.ifNeeded name) e
        copyFiles v out p rest
      | .ok fd =>
        let p ← copy v out name fd p
        Use.proc (Proc.close fd)
        copyFiles v out p rest

def run (args : List Octets) : Use Unit := do
  let given ← Use.arguments options args
  if let some fault := given.fault then Use.misuse fault
  let v := given.options.foldl (fun v o => v.add o.1) ({} : View)
  match ← Use.proc (Proc.infoOf 1) with
  | .error e => Use.die ("standard output: ".toList ++ reason e)
  | .ok out =>
    let names := if given.operands.isEmpty then [['-']] else given.operands
    let p ← copyFiles v out {} names
    if p.waiting then put ['\r']
    if names.contains ['-'] then
      if let .failed e ← Use.call (.close 0) then
        Use.die ("closing standard input: ".toList ++ reason e)

end LintRelay.Tool.Cat

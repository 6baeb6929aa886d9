import LintRelay.Shell.Arithmetic
import LintRelay.Shell.Fields
import LintRelay.Shell.Glob
/-! What words stand for. Parameters, commands and expressions are put in where a word names them;
then the word is cut into fields, and the fields that are patterns become the paths that they
match. -/
namespace LintRelay.Shell

open Process

/-- Runs a command inside a word; what it prints. -/
abbrev Capture := Option Command → Sh Octets

structure Mode where
  /-- Whether it becomes fields. -/
  full : Bool := false
  /-- Whether a tilde at the start is a home directory. -/
  tilde : Bool := false
  /-- Whether the word is an assignment, with tildes after its equals sign and after colons. -/
  assignment : Bool := false
  pastEquals : Bool := false
  quoted : Bool := false
  /-- Whether this is the word of a parameter in braces. -/
  inBraces : Bool := false
  /-- Whether the word is only passed over. -/
  discard : Bool := false

namespace Expansion

def cellsOf (quoted : Bool) (text : Octets) : List Cell :=
  text.map (if quoted then .quoted else .plain)

def between (quoted : Bool) (gap : List Cell) (args : List Octets) : List Cell :=
  gap.intercalate (args.map (cellsOf quoted))

def allArguments (s : State) (name : Char) (full quoted : Bool) : List Cell :=
  let separator : List Cell :=
    match s.text? "IFS" with
    | none => cellsOf quoted [' ']
    | some ifs => cellsOf quoted (ifs.take 1)
  if name == '@' && quoted && full then between quoted [.gap] s.args
  else if full && !quoted then
    between quoted (if (s.text? "IFS").isSome then [.gap] else [.plain ' ']) s.args
  else between quoted separator s.args

def value? (s : State) (name : Octets) (full quoted : Bool) : Option (List Cell) :=
  let number (n : Nat) : Option (List Cell) := some (cellsOf quoted (Octets.ofNat n))
  match name with
  | ['$'] => number s.id
  | ['?'] => number s.status
  | ['#'] => number s.args.length
  | ['!'] => if s.lastBackground == 0 then none else number s.lastBackground
  | ['-'] => some (cellsOf quoted s.flagLetters)
  | ['@'] => some (allArguments s '@' full quoted)
  | ['*'] => some (allArguments s '*' full quoted)
  | c :: _ =>
    if c.isDigit then
      let n := Format.valueOf 10 name
      let text := if n == 0 then some s.name else s.args[n - 1]?
      text.map (cellsOf quoted)
    else (s.value? name).map (cellsOf quoted)
  | [] => none

/-- The home directories of those who have one everywhere. -/
def homes : List (String × String) :=
  [("root", "/root"), ("daemon", "/usr/sbin"), ("bin", "/bin"), ("sys", "/dev"),
    ("nobody", "/nonexistent")]

/-- A tilde and what follows it, up to a slash: the home directory, and the rest. -/
def tilde? (s : State) (m : Mode) (signs : Word) : Option (Octets × Word) := do
  let ends (c : Char) : Bool := c == '/' || (c == ':' && m.assignment)
  let isPart (x : Sign) : Bool := (Sign.plain? x).any fun c => !ends c
  let name ← Word.plain? (signs.takeWhile isPart)
  let rest := signs.dropWhile isPart
  match rest with
  | [] | .char _ :: _ | .close :: _ =>
    let home ←
      if name.isEmpty then s.text? "HOME"
      else (homes.lookup (String.ofList name)).map String.toList
    return (home, rest)
  | _ => none

def unsetParameter {α : Type} (name : Octets) (message : Option Octets) (orEmpty : Bool) : Sh α :=
  match message with
  | some text => Sh.fail (name ++ ": ".toList ++ text)
  | none => Sh.failFor name ("parameter not set" ++ if orEmpty then " or null" else "")

/-- The value of an expression; its assignments are carried out. -/
def arithmetic (text : Octets) : Sh Int := do
  let s ← get
  let (result, assigned) := Arithmetic.evaluate s.value? text
  for (name, n) in assigned do Sh.assign name (toString n).toList
  match result with
  | .ok v => return v
  | .error (.malformed problem) =>
    Sh.fail (("arithmetic expression: " ++ problem ++ ": \"").toList ++ text ++ ['"'])
  | .error (.illegal value) => Sh.illegalNumber value
  | .error .overflow =>
    Sh.kill 8
    return 0

/-- Ends the region of characters that stand in braces without quotes. -/
def closeRun (m : Mode) (inQuotes : Bool) (run : Nat) (o : Outcome) : Outcome :=
  if m.inBraces && !m.quoted && !inQuotes && !m.discard && run < o.cells.size then o.record run false
  else o

/-- Whether a character of a value is kept with a mark before it. -/
def isProtected : Cell → Bool
  | .plain c => isMark c
  | .quoted c => "\\!*?[]=~:/-".toList.contains c || isMark c
  | _ => false
where
  isMark (c : Char) : Bool := '\x81' ≤ c && c ≤ '\x88'

def kept (value : List Cell) : List Cell :=
  value.flatMap fun c => if isProtected c then [.plain '\x81', c] else [c]

/-- Takes a pattern off several arguments, looking from the last place on. What is compared at a place
lies in the value as it is kept, or, if some of the first argument is protected, in a copy of that
argument, which lies behind the value and the pattern; the places are counted from both ends alike,
and a text goes no further than to the next gap. A start that is looked at ends at the place, and so
does the pattern if the place lies in it. -/
def trimmedFromEnd (pattern : Octets) (front : Bool) (value : List Cell) : List Cell :=
  let first := value.takeWhile (· != .gap)
  let isCopied := first.any isProtected
  let patternPlace := (kept value).length + 1
  let before := kept value ++ [.gap] ++ cellsOf false pattern ++ [.gap]
  let memory := if isCopied then before ++ first else kept value
  let start := if isCopied then before.length else 0
  let fits (back : Nat) : Bool :=
    let place := memory.length - back
    let text := if !front then memory.drop place
      else if place < start then first
      else (memory.take place).drop start
    let pattern := if front && isCopied && patternPlace ≤ place && place < start then
        pattern.take (place - patternPlace)
      else pattern
    (Pattern.ofText pattern).matchesText (textOf (text.takeWhile (· != .gap)))
  match (List.range (value.length + 1)).find? fits with
  | none => value
  | some back =>
    if front then value.drop (value.length - back) else value.take (value.length - back)

/-- Takes a pattern off the value of a parameter. Of several arguments only the first one is looked
at if the search begins at its start. -/
def trimmed (pattern : Octets) (front longest : Bool) (value : List Cell) : List Cell :=
  let first := value.takeWhile (· != .gap)
  if first.length != value.length && front == longest then trimmedFromEnd pattern front value
  else
    match (Pattern.ofText pattern).trim front longest (textOf first) with
    | none => value
    | some n => if front then value.drop n else first.take (first.length - n)

mutual

/-- Works out signs up to the end of what they belong to; what follows that, and what has come out.
Each step takes at least one sign. -/
def signs (capture : Capture) : (steps : Nat) → (m : Mode) → (inQuotes : Bool) → (run : Nat) →
    Word → Outcome → Sh (Word × Outcome)
  | 0, _, _, _, w, o => return (w, o)
  | steps + 1, m, inQuotes, run, w, o => do
    match w with
    | [] => return ([], closeRun m inQuotes run o)
    | .close :: rest => return (rest, closeRun m inQuotes run o)
    | .closeArith :: rest => return (rest, closeRun m inQuotes run o)
    | .char c :: rest =>
      let isColon := m.assignment && (c == ':' || (c == '=' && !m.pastEquals))
      let o := if m.discard then o else o.add (.plain c)
      if isColon then
        let m := if c == '=' then { m with pastEquals := true } else m
        let o := closeRun m inQuotes run o
        match rest with
        | .char '~' :: after =>
          match tilde? (← get) m after with
          | some (home, after) =>
            let o := if m.discard then o else o.addAll (cellsOf true home)
            signs capture steps m inQuotes o.cells.size after o
          | none => signs capture steps m inQuotes o.cells.size rest o
        | rest => signs capture steps m inQuotes o.cells.size rest o
      else signs capture steps m inQuotes run rest o
    | .quoted c :: rest =>
      let o := closeRun m inQuotes run o
      let o := if m.discard then o else o.add (.quoted c)
      signs capture steps m inQuotes o.cells.size rest o
    | .mark :: .param ['@'] .value false :: .mark :: rest =>
      if inQuotes then
        let o := closeRun m inQuotes run o
        let o := if m.discard then o else o.add .mark
        signs capture steps m false o.cells.size (.param ['@'] .value false :: .mark :: rest) o
      else
        let o := closeRun m inQuotes run o
        let (_, o) ← param capture steps { m with quoted := true } ['@'] .value false [] o
        signs capture steps m false o.cells.size rest o
    | .mark :: rest =>
      let o := closeRun m inQuotes run o
      let o := if m.discard then o else o.add .mark
      signs capture steps m (!inQuotes) o.cells.size rest o
    | .param name action orEmpty :: rest =>
      let o := closeRun m inQuotes run o
      let inner := { m with quoted := m.quoted || inQuotes, tilde := false }
      let (rest, o) ← param capture steps inner name action orEmpty rest o
      signs capture steps m inQuotes o.cells.size rest o
    | .command body :: rest =>
      let o := closeRun m inQuotes run o
      if m.discard then signs capture steps m inQuotes o.cells.size rest o
      else
        let quoted := m.quoted || inQuotes
        let text ← capture body
        let first := o.cells.size
        let o := o.addAll (cellsOf quoted text)
        let o := if quoted then o else o.record first false
        signs capture steps m inQuotes o.cells.size rest o
    | .arith :: rest =>
      let o := closeRun m inQuotes run o
      let (rest, inside) ← signs capture steps { discard := m.discard } false 0 rest {}
      if m.discard then signs capture steps m inQuotes o.cells.size rest o
      else
        let quoted := m.quoted || inQuotes
        let v ← arithmetic (textOf inside.cells.toList)
        let first := o.cells.size
        let o := o.addAll (cellsOf quoted (toString v).toList)
        let o := if quoted then o else o.record first false
        signs capture steps m inQuotes o.cells.size rest o

/-- Works out a parameter; what follows the word that belongs to it, and what has come out. -/
def param (capture : Capture) : (steps : Nat) → (m : Mode) → (name : Octets) → Action →
    (orEmpty : Bool) → Word → Outcome → Sh (Word × Outcome)
  | 0, _, _, _, _, w, o => return (w, o)
  | steps + 1, m, name, action, orEmpty, w, o => do
    let s ← get
    let first := o.cells.size
    let isWhole := action matches .replacement | .length
    let value := value? s name (m.full && !isWhole) m.quoted
    let isSet := value.any fun cells => !(orEmpty && cells.isEmpty)
    let put (cells : Option (List Cell)) (o : Outcome) : Outcome :=
      if m.discard then o else o.addAll (cells.getD [])
    let record (o : Outcome) : Outcome :=
      if m.discard then o
      else if m.quoted then
        if name.head? == some '@' && !s.args.isEmpty then o.record first true else o
      else o.record first false
    let demandSet : Sh Unit := do
      if !isSet && !m.discard && s.has .nounset then unsetParameter name none false
    let word (wanted : Bool) : Mode :=
      { m with tilde := true, inBraces := true, discard := m.discard || !wanted }
    match action with
    | .unknown =>
      if !m.discard then Sh.failText "Bad substitution"
      tildeSigns capture steps (word false) w o
    | .value =>
      demandSet
      if isSet then return (w, record (put value o)) else return (w, o)
    | .fallback =>
      if isSet then
        let (rest, o) ← tildeSigns capture steps (word false) w (put value o)
        return (rest, record o)
      else tildeSigns capture steps (word true) w o
    | .replacement =>
      if isSet then tildeSigns capture steps (word true) w o
      else
        let (rest, o) ← tildeSigns capture steps (word false) w o
        return (rest, record o)
    | .assign | .demand =>
      if isSet then
        let (rest, o) ← tildeSigns capture steps (word false) w (put value o)
        return (rest, record o)
      else
        let (rest, inside) ← tildeSigns capture steps { tilde := true, discard := m.discard } w {}
        if m.discard then return (rest, o)
        let text := textOf inside.cells.toList
        if action == .assign then
          Sh.assign name text
          let s ← get
          return (rest, record (put (value? s name m.full m.quoted) o))
        else unsetParameter name (if w.head? matches some .close then none else some text) orEmpty
    | .length =>
      demandSet
      if m.discard then return (w.tail, o)
      let length := (value.getD []).length
      return (w.tail, record (put (some (cellsOf m.quoted (Octets.ofNat length))) o))
    | .trimEnd longest | .trimStart longest =>
      demandSet
      let discard := m.discard || !isSet
      let (rest, inside) ← tildeSigns capture steps { tilde := true, discard } w {}
      if discard then return (rest, o)
      let front := action matches .trimStart _
      let cells := trimmed (patternOf inside.cells.toList) front longest (value.getD [])
      return (rest, record (put (some cells) o))

def tildeSigns (capture : Capture) : (steps : Nat) → (m : Mode) → Word → Outcome →
    Sh (Word × Outcome)
  | 0, _, w, o => return (w, o)
  | steps + 1, m, w, o => do
    let s ← get
    let first := o.cells.size
    match w with
    | .char '~' :: after =>
      match (if m.tilde then tilde? s m after else none) with
      | some (home, after) =>
        let o := if m.discard then o else o.addAll (cellsOf true home)
        signs capture steps m false o.cells.size after o
      | none => signs capture steps m false first w o
    | w => signs capture steps m false first w o

end

def outcome (capture : Capture) (m : Mode) (w : Word) : Sh Outcome := do
  return (← tildeSigns capture (2 * w.length + 4) m w {}).2

def text (capture : Capture) (m : Mode) (w : Word) : Sh Octets := do
  return textOf (← outcome capture m w).cells.toList

def pattern (capture : Capture) (w : Word) : Sh Octets := do
  return patternOf (← outcome capture { tilde := true } w).cells.toList

/-- A field, or the paths that it matches. -/
def paths (field : List Cell) : Sh (List Octets) := do
  let field := field.takeWhile (· != .gap)
  let found ← if (← get).has .noglob then pure [] else Glob.expand (patternOf field)
  return if found.isEmpty then [textOf field] else found

def fields (capture : Capture) (w : Word) : Sh (List Octets) := do
  let o ← outcome capture { full := true, tilde := true } w
  let found ← (o.fields (← get).separators).mapM paths
  return found.flatten

def allFields (capture : Capture) (ws : List Word) : Sh (List Octets) := do
  return (← ws.mapM (fields capture)).flatten

end Expansion
end LintRelay.Shell

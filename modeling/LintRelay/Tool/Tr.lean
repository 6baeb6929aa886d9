import LintRelay.Format.Numeral
import LintRelay.Tool.Session
/-! `tr` replaces characters by others, removes characters and shortens runs of them. Which
characters, two lists say; a list may hold ranges, classes and characters that are repeated. -/
namespace LintRelay.Tool.Tr

open Process

inductive Choice where
  | complement
  | delete
  | squeeze
  | truncate
  | help
  | version
  deriving DecidableEq, Repr

def options : Options Choice where
  letters := [('A', .help, .nothing), ('c', .complement, .nothing), ('C', .complement, .nothing),
    ('d', .delete, .nothing), ('s', .squeeze, .nothing), ('t', .truncate, .nothing)]
  words := [("complement", .complement, .nothing), ("delete", .delete, .nothing),
    ("squeeze-repeats", .squeeze, .nothing), ("truncate-set1", .truncate, .nothing),
    ("help", .help, .nothing), ("version", .version, .nothing)]
  inOrder := true

def isUpper (n : Nat) : Bool := 65 ≤ n && n ≤ 90

def isLower (n : Nat) : Bool := 97 ≤ n && n ≤ 122

def isDigit (n : Nat) : Bool := 48 ≤ n && n ≤ 57

def isGraphic (n : Nat) : Bool := 33 ≤ n && n ≤ 126

def isAlphanumeric (n : Nat) : Bool := isUpper n || isLower n || isDigit n

def classes : List (String × (Nat → Bool)) :=
  [("alnum", isAlphanumeric), ("alpha", fun n => isUpper n || isLower n),
    ("blank", fun n => n == 32 || n == 9), ("cntrl", fun n => n < 32 || n == 127),
    ("digit", isDigit), ("graph", isGraphic), ("lower", isLower),
    ("print", fun n => n == 32 || isGraphic n),
    ("punct", fun n => isGraphic n && !isAlphanumeric n),
    ("space", fun n => n == 32 || (9 ≤ n && n ≤ 13)), ("upper", isUpper),
    ("xdigit", fun n => isDigit n || (65 ≤ n && n ≤ 70) || (97 ≤ n && n ≤ 102))]

def everyCode : List Nat := List.range 256

def members (name : String) : List Nat :=
  match classes.find? fun c => c.1 == name with
  | some (_, p) => everyCode.filter p
  | none => []

/-- A character of a list as it was written, and whether a backslash stood before it. -/
structure Mark where
  code : Nat
  escaped : Bool
  deriving DecidableEq, Repr

inductive Element where
  | single (code : Nat)
  | range (first last : Nat)
  | named (name : String)
  | equivalent (code : Nat)
  /-- A character several times. Without a number it fills the list up. -/
  | repeated (code : Nat) (count : Option Nat)
  deriving DecidableEq, Repr

def maxRepeat : Nat := Nat.pow 2 64 - 2

structure Run where
  code : Nat
  count : Nat
  deriving DecidableEq, Repr

def Element.runs : Element → List Run
  | .single c => [⟨c, 1⟩]
  | .range first last => (List.range (last + 1 - first)).map fun n => ⟨n + first, 1⟩
  | .named name => (members name).map (⟨·, 1⟩)
  | .equivalent c => [⟨c, 1⟩]
  | .repeated c count => [⟨c, count.getD 0⟩]

def Element.size (e : Element) : Nat := (e.runs.map (·.count)).foldl (· + ·) 0

def runsOf (es : List Element) : List Run := (es.flatMap Element.runs).filter (0 < ·.count)

def sizeOf (es : List Element) : Nat := (es.map Element.size).foldl (· + ·) 0

def codesOf (es : List Element) : List Nat := (runsOf es).map (·.code)

def octalValue? (c : Char) : Option Nat :=
  if '0' ≤ c && c ≤ '7' then some (c.toNat - 48) else none

def escapeCode (c : Char) : Nat :=
  match c with
  | 'a' => 7
  | 'b' => 8
  | 'f' => 12
  | 'n' => 10
  | 'r' => 13
  | 't' => 9
  | 'v' => 11
  | c => c.toNat

def ambiguousOctal (a b c : Char) : Octets :=
  "warning: the ambiguous octal escape \\".toList ++ [a, b, c] ++
    " is being\n\tinterpreted as the 2-byte sequence \\0".toList ++ [a, b, ',', ' ', c]

/-- Resolves backslashes; with the marks come warnings. A step takes at least one character. -/
def unescape (marks : List Mark) (warnings : List Octets) :
    (steps : Nat) → Octets → List Mark × List Octets
  | 0, _ => (marks.reverse, warnings.reverse)
  | _, [] => (marks.reverse, warnings.reverse)
  | _, ['\\'] =>
    ((⟨92, false⟩ :: marks).reverse,
      ("warning: an unescaped backslash at end of string is not portable".toList :: warnings).reverse)
  | steps + 1, '\\' :: a :: rest =>
    match octalValue? a with
    | none => unescape (⟨escapeCode a, true⟩ :: marks) warnings steps rest
    | some x =>
      match rest with
      | b :: more =>
        match octalValue? b with
        | none => unescape (⟨x, true⟩ :: marks) warnings steps rest
        | some y =>
          match more with
          | c :: last =>
            match octalValue? c with
            | none => unescape (⟨8 * x + y, true⟩ :: marks) warnings steps more
            | some z =>
              if 64 * x + 8 * y + z < 256 then
                unescape (⟨64 * x + 8 * y + z, true⟩ :: marks) warnings steps last
              else
                unescape (⟨8 * x + y, true⟩ :: marks) (ambiguousOctal a b c :: warnings) steps more
          | [] => unescape (⟨8 * x + y, true⟩ :: marks) warnings steps more
      | [] => unescape (⟨x, true⟩ :: marks) warnings steps rest
  | steps + 1, c :: rest => unescape (⟨c.toNat, false⟩ :: marks) warnings steps rest

def Mark.is (m : Mark) (c : Char) : Bool := m.code == c.toNat && !m.escaped

def shownCode (n : Nat) : Octets :=
  if 32 ≤ n && n ≤ 126 then [Char.ofNat n] else '\\' :: octalDigits (Char.ofNat n)

def shownCodes (ns : List Nat) : Octets :=
  ns.flatMap fun n =>
    if n == 92 then ['\\', '\\']
    else
      match controlLetter? (Char.ofNat n) with
      | some l => ['\\', l]
      | none => shownCode n

/-- What stands before a delimiter with a closing bracket, and what follows them. -/
def untilClosing (delimiter : Char) (seen : List Nat) : List Mark → Option (List Nat × List Mark)
  | a :: b :: rest =>
    if a.is delimiter && b.is ']' then some (seen.reverse, rest)
    else untilClosing delimiter (a.code :: seen) (b :: rest)
  | _ => none

def isRepeatTail : List Mark → Bool
  | m :: rest =>
    m.is '*' && ((rest.dropWhile fun m => isDigit m.code).head?.any fun m => m.is ']')
  | [] => false

/-- A repeated character after an opening bracket, and what follows it; or no such thing; or a
number that cannot be. -/
def repeated? : List Mark → Except Octets (Option (Element × List Mark))
  | c :: star :: rest =>
    if !star.is '*' then .ok none
    else
      let digits := rest.takeWhile fun m => !m.escaped && m.code != ']'.toNat
      match rest.drop digits.length with
      | close :: rest =>
        if close.escaped then .ok none
        else
          let codes := digits.map (·.code)
          let n := Format.Numeral.read (some (if codes.head? == some 48 then 8 else 10))
            (codes.map Char.ofNat)
          if codes.isEmpty then .ok (some (.repeated c.code none, rest))
          else if n.found && !n.negative && n.rest.isEmpty && n.magnitude ≤ maxRepeat then
            .ok (some (.repeated c.code (if n.magnitude == 0 then none else some n.magnitude), rest))
          else
            .error ("invalid repeat count ".toList ++ Quote.forReader (shownCodes codes) ++
              " in [c*n] construct".toList)
      | [] => .ok none
  | _ => .ok none

def class? (delimiter : Mark) (rest : List Mark) : Except Octets (Option (Element × List Mark)) :=
  if delimiter.is ':' then
    match untilClosing ':' [] rest with
    | none => .ok none
    | some ([], _) => .error "missing character class name '[::]'".toList
    | some (codes, after) =>
      match classes.find? fun c => c.1.toList.map Char.toNat == codes with
      | some (name, _) => .ok (some (.named name, after))
      | none =>
        if isRepeatTail rest then .ok none
        else .error ("invalid character class ".toList ++ Quote.forReader (shownCodes codes))
  else if delimiter.is '=' then
    match untilClosing '=' [] rest with
    | none => .ok none
    | some ([], _) => .error "missing equivalence class character '[==]'".toList
    | some ([c], after) => .ok (some (.equivalent c, after))
    | some (codes, _) =>
      if isRepeatTail rest then .ok none
      else
        .error (shownCodes codes ++
          ": equivalence class operand must be a single character".toList)
  else .ok none

def bracket? : List Mark → Except Octets (Option (Element × List Mark))
  | d :: rest => do
    match ← class? d rest with
    | some found => return some found
    | none => repeated? (d :: rest)
  | [] => .ok none

/-- Reads a list. Whatever is more than one character is at least three marks long. -/
def elements (seen : List Element) : (steps : Nat) → List Mark → Except Octets (List Element)
  | 0, _ => .ok seen.reverse
  | _, [] => .ok seen.reverse
  | steps + 1, a :: rest =>
    if rest.length < 2 then elements (.single a.code :: seen) steps rest
    else do
      let found ← if a.is '[' then bracket? rest else .ok none
      match found with
      | some (e, after) => elements (e :: seen) steps after
      | none =>
        match rest with
        | dash :: b :: after =>
          if dash.is '-' then
            if b.code < a.code then
              .error ("range-endpoints of '".toList ++ shownCode a.code ++ ['-'] ++
                shownCode b.code ++ "' are in reverse collating sequence order".toList)
            else elements (.range a.code b.code :: seen) steps after
          else elements (.single a.code :: seen) steps rest
        | _ => elements (.single a.code :: seen) steps rest

structure Wish where
  complement : Bool := false
  delete : Bool := false
  squeeze : Bool := false
  truncate : Bool := false

def Wish.add (w : Wish) : Choice → Wish
  | .complement => { w with complement := true }
  | .delete => { w with delete := true }
  | .squeeze => { w with squeeze := true }
  | .truncate => { w with truncate := true }
  | .help | .version => w

def hasClass (es : List Element) : Bool := es.any (· matches .named _)

def isCase (name : String) : Bool := name == "upper" || name == "lower"

def openEnds (es : List Element) : Nat := es.countP (· matches .repeated _ none)

def outside (codes : List Nat) : List Nat := everyCode.filter fun c => !codes.contains c

/-- Fills up what has no number, so that a list becomes as long as another one. -/
def fill (length : Nat) (es : List Element) : List Element :=
  es.map fun e =>
    match e with
    | .repeated c none => .repeated c (some (length - sizeOf es))
    | e => e

/-- The units of a list that stand opposite each other: characters, or a whole class of capital or
small letters. -/
inductive Cell where
  | run (r : Run)
  | letters (name : String)
  deriving DecidableEq, Repr

/-- The cells of a list. A class that stands opposite a class of letters is taken as a whole, any
other one as its characters. -/
def cells (es : List Element) : List Cell :=
  es.flatMap fun e =>
    match e with
    | .named name => if isCase name then [.letters name] else e.runs.map .run
    | e => (runsOf [e]).map .run

def asRuns : Cell → List Run
  | .run r => [r]
  | .letters name => (Element.named name).runs

def Run.less (r : Run) (n : Nat) : List Cell := if n < r.count then [.run ⟨r.code, r.count - n⟩] else []

/-- What two lists map to what, and what is left of them. The first list gives its classes out
character by character where the second one has none. A step takes a cell from a list. -/
def pairs : (steps : Nat) → List Cell → List Cell →
    Except Octets (List (Nat × Nat) × List Cell × List Cell)
  | 0, as, bs => .ok ([], as, bs)
  | steps + 1, as, bs =>
    match as, bs with
    | .letters a :: as, .letters b :: bs => do
      let (more, rest) ← pairs steps as bs
      let swap (n : Nat) : Nat :=
        if a == "lower" && b == "upper" then n - 32
        else if a == "upper" && b == "lower" then n + 32
        else n
      return ((members a).map (fun n => (n, swap n)) ++ more, rest)
    | .letters a :: as, bs => pairs steps ((asRuns (.letters a)).map .run ++ as) bs
    | _, .letters _ :: _ => .error "misaligned [:upper:] and/or [:lower:] construct".toList
    | .run a :: as, .run b :: bs => do
      let n := min a.count b.count
      let (more, rest) ← pairs steps (a.less n ++ as) (b.less n ++ bs)
      return ((a.code, b.code) :: more, rest)
    | as, bs => .ok ([], as, bs)

def pairUp (as bs : List Cell) : Except Octets (List (Nat × Nat) × List Cell × List Cell) :=
  pairs (as.length + bs.length + 256 * (as.countP (· matches .letters _) + 1)) as bs

def padding (es : List Element) : Except Octets Nat :=
  match es.getLast? with
  | some (.named _) =>
    .error ("when translating with string1 longer than string2,\n" ++
      "the latter string must not end with a character class").toList
  | some (.repeated c _) => .ok c
  | some e => .ok ((e.runs.getLast?.map (·.code)).getD 0)
  | none => .error "when not truncating set1, string2 must be non-empty".toList

/-- The second list as long as the first one, which has `length` characters. -/
def lengthen (length : Nat) (second : List Element) : Except Octets (List Element) := do
  let missing := length - sizeOf second
  if missing == 0 then return second
  if sizeOf second == 0 then throw "when not truncating set1, string2 must be non-empty".toList
  return second ++ [.repeated (← padding second) (some missing)]

def tooManyOpenEnds : Octets := "only one [c*] repeat construct may appear in string2".toList

/-- The map from the first list to the second one, and the second list with what was added to it. -/
def mapping (w : Wish) (first second : List Element) :
    Except Octets (List (Nat × Nat) × List Element) := do
  let domain : List Run :=
    if w.complement then (outside (codesOf first)).map (⟨·, 1⟩) else runsOf first
  let length := (domain.map (·.count)).foldl (· + ·) 0
  if 1 < openEnds second then throw tooManyOpenEnds
  let second := if sizeOf second ≤ length then fill length second else second
  if second.any (· matches .equivalent _) then
    throw "[=c=] expressions may not appear in string2 when translating".toList
  if second.any fun e => match e with | .named n => !isCase n | _ => false then
    throw ("when translating, the only character classes that may appear in\n" ++
      "string2 are 'upper' and 'lower'").toList
  if hasClass second && !w.complement then
    let (found, unpaired, _) ← pairUp (cells first) (cells second)
    let unpaired := unpaired.flatMap asRuns
    if unpaired.isEmpty || w.truncate then return (found, second)
    let last ← padding second
    return (found ++ unpaired.map fun r => (r.code, last), second ++ [.repeated last (some 1)])
  let second ← if w.truncate then pure second else lengthen length second
  if w.complement && hasClass first &&
      !(sizeOf second == length && (codesOf second).eraseDups.length == 1) then
    throw ("when translating with complemented character classes,\n" ++
      "string2 must map all characters in the domain to one").toList
  let (found, _) ← pairUp (domain.map .run) ((runsOf second).map .run)
  return (found, second)

/-- What is done to the text: characters that go, what the others become, and of which ones only
the first in a row stays. -/
structure Plan where
  removed : Array Bool
  image : Array Nat
  squeezed : Array Bool

def flags (codes : List Nat) : Array Bool :=
  codes.foldl (fun a c => a.setIfInBounds c true) (Array.replicate 256 false)

def plan (w : Wish) (first : List Element) (second : Option (List Element)) :
    Except Octets Plan := do
  let tooMany := "too many characters in set".toList
  if maxRepeat < sizeOf first then throw tooMany
  if 0 < openEnds first then
    throw "the [c*] repeat construct may not appear in string1".toList
  let domain := if w.complement then outside (codesOf first) else codesOf first
  let same := Array.range 256
  match second with
  | none =>
    return ⟨if w.delete then flags domain else flags [], same,
      if w.delete then flags [] else flags domain⟩
  | some second =>
    if maxRepeat < sizeOf second then throw tooMany
    if w.delete then
      if 1 < openEnds second then throw tooManyOpenEnds
      if 0 < openEnds second then
        throw "the [c*] construct may appear in string2 only when translating".toList
      return ⟨flags domain, same, flags (codesOf second)⟩
    let (found, second) ← mapping w first second
    let image := found.foldl (fun a (x, y) => a.setIfInBounds x y) same
    return ⟨flags [], image, if w.squeeze then flags (codesOf second) else flags []⟩

/-- Changes a piece of the text; the last character that was printed decides what is a run. -/
def Plan.apply (p : Plan) (last : Option Nat) (text : Octets) : Octets × Option Nat :=
  let step (soFar : Octets × Option Nat) (c : Char) : Octets × Option Nat :=
    let n := c.toNat
    if p.removed.getD n false then soFar
    else
      let n := p.image.getD n n
      if p.squeezed.getD n false && soFar.2 == some n then soFar
      else (Char.ofNat n :: soFar.1, some n)
  let (shown, last) := text.foldl step ([], last)
  (shown.reverse, last)

def blockSize : Nat := 8192

def readList (text : Octets) : Use (List Element) := do
  let (marks, warnings) := unescape [] [] (text.length + 1) text
  for warning in warnings do Use.complain warning
  match elements [] (marks.length + 1) marks with
  | .ok es => return es
  | .error e => Use.die e

def checkOperands (w : Wish) (operands : List Octets) : Use Unit := do
  let least := if w.delete == w.squeeze then 2 else 1
  let most := if w.delete && !w.squeeze then 1 else 2
  if operands.length < least then
    match operands.getLast? with
    | none => Use.misuse "missing operand".toList
    | some last =>
      Use.complain ("missing operand after ".toList ++ Quote.forReader last)
      Use.report (if w.squeeze then
          "Two strings must be given when both deleting and squeezing repeats.\n".toList
        else "Two strings must be given when translating.\n".toList)
      Use.advise
  if most < operands.length then
    Use.complain ("extra operand ".toList ++ Quote.forReader (operands.getD most []))
    if operands.length == 2 then
      Use.report
        "Only one string may be given when deleting without squeezing repeats.\n".toList
    Use.advise

def run (args : List Octets) : Use Unit := do
  let given ← Use.arguments options args
  if let some fault := given.fault then Use.misuse fault
  let w := given.options.foldl (fun w o => w.add o.1) ({} : Wish)
  checkOperands w given.operands
  let first ← readList (given.operands.getD 0 [])
  let second ←
    match given.operands.drop 1 with
    | text :: _ => do pure (some (← readList text))
    | [] => pure none
  match plan w first second with
  | .error e => Use.die e
  | .ok p =>
    let step (last : Option Nat) (text : Octets) : Use (Option Nat) := do
      let (shown, last) := p.apply last text
      if let some e ← Use.tryToSay shown then
        Use.die ("write error: ".toList ++ Octets.ofString e.reason)
      return last
    let (trouble, _) ← Use.eachPiece 0 blockSize step maxPieces none
    if let some e := trouble then Use.die ("read error: ".toList ++ Octets.ofString e.reason)

end LintRelay.Tool.Tr

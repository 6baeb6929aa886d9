import LintRelay.Format.Layout
import LintRelay.Tool.Echo
/-! `printf` prints its arguments as a format says. The format is used again until no argument is
left. -/
namespace LintRelay.Tool.Printf

open Format

def outOfRange : Octets := "Numerical result out of range".toList

def checkNumber (text rest : Octets) (found tooLarge : Bool) : Use Unit := do
  if tooLarge then Use.blame (Quote.forReader text ++ ": ".toList ++ outOfRange)
  else if !rest.isEmpty then
    if found then Use.blame (Quote.forReader text ++ ": value not completely converted".toList)
    else Use.blame (Quote.forReader text ++ ": expected a numeric value".toList)

def quotedCode? (text : Octets) : Use (Option Nat) := do
  match text with
  | q :: c :: rest =>
    if q == '"' || q == '\x27' then
      if !rest.isEmpty && !(← Use.isStandard) then
        Use.complain ("warning: ".toList ++ rest ++
          ": character(s) following character constant have been ignored".toList)
      return some c.toNat
    else return none
  | _ => return none

def readSigned (text : Octets) : Use Int := do
  match ← quotedCode? text with
  | some n => return n
  | none =>
    let n := Numeral.read none text
    let (value, tooLarge) := n.signed
    checkNumber text n.rest n.found tooLarge
    return value

def readUnsigned (text : Octets) : Use Nat := do
  match ← quotedCode? text with
  | some n => return n
  | none =>
    let n := Numeral.read none text
    let (value, tooLarge) := n.unsigned
    checkNumber text n.rest n.found tooLarge
    return value

def readFloating (text : Octets) : Use Floating := do
  match ← quotedCode? text with
  | some n => return (Precision.extended.nearest false n 1).1
  | none =>
    let r := Floating.read .extended text
    checkNumber text r.rest r.found r.outOfRange
    return r.value

def missingHex {α : Type} : Use α := Use.die "missing hexadecimal number in escape".toList

/-- A character by its code, which this locale can only spell out. -/
def codePoint (letter : Char) (digits : Octets) : Use Octets := do
  let n := valueOf 16 digits
  let plain := n == 0x24 || n == 0x40 || n == 0x60
  if (n ≤ 0x9f && !plain) || (0xd800 ≤ n && n ≤ 0xdfff) then
    Use.die ("invalid universal character name \\".toList ++ letter :: digits.map Char.toLower)
  if plain then return [Char.ofNat n]
  let hex := (Nat.toDigits 16 n).map Char.toUpper
  let (mark, count) := if n < 0x10000 then ('u', 4) else ('U', 8)
  return '\\' :: mark :: List.replicate (count - hex.length) '0' ++ hex

/-- What follows a backslash. In an argument an octal number may have a zero more in front. -/
def escape (inArgument : Bool) (text : Octets) : Use (Octets × Octets) := do
  match text with
  | [] => return (['\\'], [])
  | c :: rest =>
    if c == '"' then return (['"'], rest)
    if c == 'c' then Use.exit 0
    match Echo.letter? c with
    | some l => return ([l], rest)
    | none =>
      if c == 'x' then
        let digits := (rest.take 2).takeWhile (isDigitOf 16)
        if digits.isEmpty then missingHex
        return ([Char.ofNat (valueOf 16 digits)], rest.drop digits.length)
      else if Echo.isOctal c then
        let from' := if inArgument && c == '0' then rest else text
        let digits := (from'.take 3).takeWhile Echo.isOctal
        return ([Char.ofNat (valueOf 8 digits % 256)], from'.drop digits.length)
      else if c == 'u' || c == 'U' then
        let count := if c == 'u' then 4 else 8
        let digits := (rest.take count).takeWhile (isDigitOf 16)
        if digits.length < count then missingHex
        return (← codePoint c digits, rest.drop count)
      else return (['\\', c], rest)

def printEscaped : (steps : Nat) → Octets → Use Unit
  | 0, _ => return
  | _, [] => return
  | steps + 1, '\\' :: rest => do
    let (text, rest) ← escape true rest
    Use.say text
    printEscaped steps rest
  | steps + 1, c :: rest => do
    Use.say [c]
    printEscaped steps rest

/-- What stands between a percent sign and the letter. -/
structure Directive where
  layout : Layout := {}
  /-- The letters that the marks leave possible. -/
  letters : Octets := "aAcdeEfFgGiosuxX".toList

def Directive.without (d : Directive) (letters : String) : Directive :=
  { d with letters := d.letters.filter fun c => !letters.toList.contains c }

def readFlags (d : Directive) : Octets → Directive × Octets
  | '\x27' :: cs => readFlags (d.without "aAceEosxX") cs
  | 'I' :: cs => readFlags (d.without "aAceEosxX") cs
  | '-' :: cs => readFlags { d with layout := { d.layout with left := true } } cs
  | '+' :: cs => readFlags { d with layout := { d.layout with plus := true } } cs
  | ' ' :: cs => readFlags { d with layout := { d.layout with blank := true } } cs
  | '#' :: cs => readFlags ({ d with layout := { d.layout with alternate := true } }.without "cdisu") cs
  | '0' :: cs => readFlags ({ d with layout := { d.layout with zeros := true } }.without "cs") cs
  | cs => (d, cs)

def maxWidth : Int := Int.pow 2 31 - 1

def setWidth (l : Layout) (n : Int) : Layout :=
  if n < 0 then { l with left := true, width := n.natAbs } else { l with width := n.natAbs }

/-- A width, given by digits or by an argument. -/
def readWidth (d : Directive) (text : Octets) (args : List Octets) :
    Use (Directive × Octets × List Octets) := do
  match text, args with
  | '*' :: cs, arg :: args =>
    let n ← readSigned arg
    if maxWidth < n || n < -maxWidth - 1 then
      Use.die ("invalid field width: ".toList ++ Quote.forReader arg)
    return ({ d with layout := setWidth d.layout n }, cs, args)
  | '*' :: cs, [] => return (d, cs, [])
  | cs, args =>
    let digits := cs.takeWhile Char.isDigit
    return ({ d with layout := { d.layout with width := valueOf 10 digits } },
      cs.drop digits.length, args)

def readPrecision (d : Directive) (text : Octets) (args : List Octets) :
    Use (Directive × Octets × List Octets) := do
  let set (d : Directive) (n : Option Nat) : Directive :=
    { d with layout := { d.layout with precision := n } }
  match text, args with
  | '.' :: '*' :: cs, arg :: args =>
    let n ← readSigned arg
    if maxWidth < n then Use.die ("invalid precision: ".toList ++ Quote.forReader arg)
    return (set (d.without "c") (if n < 0 then none else some n.natAbs), cs, args)
  | '.' :: '*' :: cs, [] => return (set (d.without "c") (some 0), cs, [])
  | '.' :: cs, args =>
    let digits := cs.takeWhile Char.isDigit
    return (set (d.without "c") (some (valueOf 10 digits)), cs.drop digits.length, args)
  | cs, args => return (d, cs, args)

def isSize (c : Char) : Bool := "lLhjtz".toList.contains c

def printOne (l : Layout) (kind : Char) (arg : Octets) : Use Unit := do
  if l.isTooLarge then
    Use.die "cannot perform formatted output: Value too large for defined data type".toList
  match kind with
  | 'd' | 'i' => Use.say (l.signed (← readSigned arg))
  | 'o' | 'u' | 'x' | 'X' => Use.say (l.unsigned kind (← readUnsigned arg))
  | 'c' => Use.say (l.pad [arg.headD '\x00'])
  | 's' => Use.say (l.text arg)
  | _ => Use.say (l.floating .extended 4 kind (← readFloating arg))

/-- Prints the format once; the arguments that are left. A step takes at least one character. -/
def printFormat : (steps : Nat) → Octets → List Octets → Use (List Octets)
  | 0, _, args => return args
  | _, [], args => return args
  | steps + 1, '\\' :: cs, args => do
    let (text, cs) ← escape false cs
    Use.say text
    printFormat steps cs args
  | steps + 1, '%' :: cs, args => do
    match cs with
    | '%' :: cs =>
      Use.say ['%']
      printFormat steps cs args
    | 'b' :: cs =>
      if let some arg := args.head? then printEscaped (arg.length + 1) arg
      printFormat steps cs args.tail
    | 'q' :: cs =>
      if let some arg := args.head? then Use.say (Quote.forShell arg)
      printFormat steps cs args.tail
    | _ =>
      let (d, rest) := readFlags {} cs
      let (d, rest, args) ← readWidth d rest args
      let (d, rest, args) ← readPrecision d rest args
      let rest := rest.dropWhile isSize
      match rest with
      | kind :: after =>
        if !d.letters.contains kind then
          Use.die ('%' :: cs.take (cs.length - after.length) ++
            ": invalid conversion specification".toList)
        printOne d.layout kind (args.headD [])
        printFormat steps after args.tail
      | [] => Use.die ('%' :: cs ++ ": invalid conversion specification".toList)
  | steps + 1, c :: cs, args => do
    Use.say [c]
    printFormat steps cs args

/-- Prints the format as often as there are arguments for it. -/
def printAll (format : Octets) : (rounds : Nat) → List Octets → Use Unit
  | 0, _ => return
  | rounds + 1, args => do
    let left ← printFormat (format.length + 1) format args
    match left with
    | [] => return
    | extra :: _ =>
      if left.length < args.length then printAll format rounds left
      else
        Use.complain ("warning: ignoring excess arguments, starting with ".toList ++
          Quote.forReader extra)

def run (args : List Octets) : Use Unit := do
  if args == ["--help".toList] || args == ["--version".toList] then Use.exit 0
  let args := if args.head? == some "--".toList then args.tail else args
  match args with
  | [] => Use.misuse "missing operand".toList
  | format :: args => printAll format (args.length + 1) args

end LintRelay.Tool.Printf

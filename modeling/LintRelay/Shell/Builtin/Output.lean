import LintRelay.Format.Layout
import LintRelay.Shell.Builtin.Options
/-! How a shell prints for itself: `echo`, and `printf` with a format that is used again until no
argument is left. -/
namespace LintRelay.Shell.Builtin

open Format

def isOctal (c : Char) : Bool := '0' ≤ c && c ≤ '7'

def escapeLetters : List (Char × Char) :=
  [('\\', '\\'), ('a', '\x07'), ('b', '\x08'), ('e', '\x1b'), ('f', '\x0c'), ('n', '\n'),
    ('r', '\r'), ('t', '\t'), ('v', '\x0b')]

/-- What follows a backslash, as one character, and what comes after that. -/
def escaped (text : Octets) : Char × Octets :=
  match text with
  | [] => ('\\', [])
  | c :: rest =>
    if isOctal c then
      let digits := (text.take 3).takeWhile isOctal
      (Char.ofNat (valueOf 8 digits % 256), text.drop digits.length)
    else
      match escapeLetters.lookup c with
      | some d => (d, rest)
      | none => ('\\', text)

def unescaped (seen : Octets) : (steps : Nat) → Octets → Octets × Bool
  | 0, _ => (seen.reverse, false)
  | _, [] => (seen.reverse, false)
  | steps + 1, '\\' :: rest =>
    match rest with
    | 'c' :: _ => (seen.reverse, true)
    | _ =>
      let rest :=
        match rest with
        | '0' :: d :: more => if isOctal d then d :: more else rest
        | _ => rest
      let (c, rest) := escaped rest
      unescaped (c :: seen) steps rest
  | steps + 1, c :: rest => unescaped (c :: seen) steps rest

def unescape (text : Octets) : Octets × Bool := unescaped [] (text.length + 1) text

def echoWords (ending : Octets) : List Octets → Sh Unit
  | [] => Sh.print ending
  | w :: rest => do
    let (text, ends) := unescape w
    Sh.print text
    if ends then return
    if rest.isEmpty then Sh.print ending
    else
      Sh.print [' ']
      echoWords ending rest

def echo (args : List Octets) : Sh Nat := do
  match args with
  | ['-', 'n'] :: rest => echoWords [] rest
  | args => echoWords ['\n'] args
  return 0

/-- What `printf` has not used yet, and what it will end with. -/
structure Printing where
  args : List Octets
  status : Nat := 0

namespace Printing

def next (p : Printing) : Option Octets × Printing :=
  (p.args.head?, { p with args := p.args.tail })

/-- Complains if an argument is not quite a number. -/
def check (p : Printing) (text rest : Octets) (tooLarge : Bool) : Sh Printing := do
  let complaint : Option String :=
    if !rest.isEmpty then
      some (if rest.length == text.length then "expected numeric value" else "not completely converted")
    else if tooLarge then some "Numerical result out of range"
    else none
  match complaint with
  | some c =>
    Sh.complain (text ++ ": ".toList ++ c.toList)
    return { p with status := 1 }
  | none => return p

def quoted? (text : Octets) : Option Nat :=
  match text with
  | '"' :: rest | '\x27' :: rest => some (rest.headD '\x00').toNat
  | _ => none

def numeral {α : Type} (p : Printing) (ofCode : Nat → α) (convert : Numeral → α × Bool) :
    Sh (α × Printing) := do
  match p.next with
  | (none, p) => return (ofCode 0, p)
  | (some text, p) =>
    match quoted? text with
    | some n => return (ofCode n, p)
    | none =>
      let n := Numeral.read none text
      let (value, tooLarge) := convert n
      return (value, ← p.check text (if n.found then n.rest else text) tooLarge)

def signed (p : Printing) : Sh (Int × Printing) := p.numeral (fun n => (n : Int)) Numeral.signed

def unsigned (p : Printing) : Sh (Nat × Printing) := p.numeral id Numeral.unsigned

def floating (p : Printing) : Sh (Floating × Printing) := do
  match p.next with
  | (none, p) => return (.finite false 0 0, p)
  | (some text, p) =>
    match quoted? text with
    | some n => return ((Precision.double.nearest false n 1).1, p)
    | none =>
      let r := Floating.read .double text
      return (r.value, ← p.check text r.rest r.outOfRange)

/-- An argument that is a width or a precision. Only so many of its bits count. -/
def size (p : Printing) : Sh (Int × Printing) := do
  let (n, p) ← p.signed
  return ((n + Int.pow 2 31) % Int.pow 2 32 - Int.pow 2 31, p)

end Printing

def flagsOf (l : Layout) : Octets → Layout × Octets
  | '-' :: cs => flagsOf { l with left := true } cs
  | '+' :: cs => flagsOf { l with plus := true } cs
  | ' ' :: cs => flagsOf { l with blank := true } cs
  | '#' :: cs => flagsOf { l with alternate := true } cs
  | '0' :: cs => flagsOf { l with zeros := true } cs
  | cs => (l, cs)

def withWidth (l : Layout) (n : Int) : Layout :=
  if n < 0 then { l with left := true, width := n.natAbs } else { l with width := n.natAbs }

def widthOf (l : Layout) (p : Printing) (text : Octets) : Sh (Layout × Printing × Octets) := do
  match text with
  | '*' :: cs =>
    let (n, p) ← p.size
    return (withWidth l n, p, cs)
  | cs =>
    let digits := cs.takeWhile Char.isDigit
    return ({ l with width := valueOf 10 digits }, p, cs.drop digits.length)

def precisionOf (l : Layout) (p : Printing) (text : Octets) : Sh (Layout × Printing × Octets) := do
  match text with
  | '.' :: '*' :: cs =>
    let (n, p) ← p.size
    return ({ l with precision := if n < 0 then none else some n.natAbs }, p, cs)
  | '.' :: cs =>
    let digits := cs.takeWhile Char.isDigit
    return ({ l with precision := some (valueOf 10 digits) }, p, cs.drop digits.length)
  | cs => return (l, p, cs)

def printLaidOut (l : Layout) (field : Unit → Octets) : Sh Unit := do
  if l.isTooLarge then Sh.failText "xvsnprintf failed"
  Sh.print (field ())

/-- Prints the next argument as a letter says; whether everything ends there. -/
def printField (l : Layout) (kind : Char) (p : Printing) (directive : Octets) :
    Sh (Printing × Bool) := do
  match kind with
  | 'b' =>
    let (arg, p) := p.next
    let (text, ends) := unescape (arg.getD [])
    printLaidOut l fun _ => l.text text
    return (p, ends)
  | 'c' =>
    let (arg, p) := p.next
    printLaidOut l fun _ => l.pad [(arg.getD []).headD '\x00']
    return (p, false)
  | 's' =>
    let (arg, p) := p.next
    printLaidOut l fun _ => l.text (arg.getD [])
    return (p, false)
  | 'd' | 'i' =>
    let (n, p) ← p.signed
    printLaidOut l fun _ => l.signed n
    return (p, false)
  | 'o' | 'u' | 'x' | 'X' =>
    let (n, p) ← p.unsigned
    printLaidOut l fun _ => l.unsigned kind n
    return (p, false)
  | 'a' | 'A' | 'e' | 'E' | 'f' | 'F' | 'g' | 'G' =>
    let (x, p) ← p.floating
    printLaidOut l fun _ => l.floating .double 1 kind x
    return (p, false)
  | _ => Sh.fail (directive ++ ": invalid directive".toList)

/-- Prints the format once; whether everything ends there. A step takes at least one character. -/
def printFormat : (steps : Nat) → Octets → Printing → Sh (Printing × Bool)
  | 0, _, p => return (p, false)
  | _, [], p => return (p, false)
  | steps + 1, c :: cs, p => do
    match c with
    | '\\' =>
      let (d, rest) := escaped cs
      Sh.print [d]
      printFormat steps rest p
    | '%' =>
      if cs.head? == some '%' then
        Sh.print ['%']
        printFormat steps cs.tail p
      else
        let (l, rest) := flagsOf {} cs
        let (l, p, rest) ← widthOf l p rest
        let (l, p, rest) ← precisionOf l p rest
        match rest with
        | [] => Sh.failText "missing format character"
        | kind :: after =>
          let directive := c :: cs.take (cs.length - after.length)
          match ← printField l kind p directive with
          | (p, true) => return (p, true)
          | (p, false) => printFormat steps after p
    | c =>
      let isPlain (c : Char) : Bool := c != '\\' && c != '%'
      Sh.print (c :: cs.takeWhile isPlain)
      printFormat steps (cs.dropWhile isPlain) p

/-- Prints the format as often as there are arguments for it. -/
def printRounds (format : Octets) : (rounds : Nat) → Printing → Sh Nat
  | 0, p => return p.status
  | rounds + 1, p => do
    let (q, ends) ← printFormat (format.length + 1) format p
    if ends || q.args.isEmpty || q.args.length == p.args.length then return q.status
    printRounds format rounds q

def printf (args : List Octets) : Sh Nat := do
  match ← operands args with
  | [] => Sh.failText "usage: printf format [arg ...]"
  | format :: args => printRounds format (args.length + 1) { args }

end LintRelay.Shell.Builtin

import LintRelay.Json.Fault
import LintRelay.Json.Value
/-! The smallest parts of a JSON text: blanks, the three words, numbers and strings. Each reader
takes the text that is left and gives back what it read and what is left after it. -/
namespace LintRelay.Json

def isSpace (c : Char) : Bool := c == ' ' || c == '\n' || c == '\t' || c == '\r'

def skipSpace (cs : List Char) : List Char := cs.dropWhile isSpace

def readWord : List Char → List Char → Except Fault (List Char)
  | [], cs => .ok cs
  | _ :: _, [] => .error (.past .endInValue [])
  | w :: ws, c :: cs => if c == w then readWord ws cs else .error (.past .wordExpected (c :: cs))

/-- A number as it was written, in parts; `exponent` has its sign, if it was given one. -/
structure Numeral where
  negative : Bool
  whole : List Char
  fraction : Option (List Char)
  exponent : Option (Option Char × List Char)
  deriving DecidableEq, Repr

/-- The text that is kept of a number: the mark of the exponent is a small e, and the exponent has
a sign. -/
def Numeral.text (n : Numeral) : List Char :=
  (if n.negative then ['-'] else []) ++ n.whole ++
    (match n.fraction with
      | none => []
      | some ds => '.' :: ds) ++
    match n.exponent with
      | none => []
      | some (sign, ds) => 'e' :: sign.getD '+' :: ds

/-- A number that breaks off: the fault, and how many bytes were not looked at by then. -/
structure NumeralFault where
  fault : Fault
  unread : Nat

def NumeralFault.left (rest : List Char) : NumeralFault :=
  match rest with
  | [] => ⟨.past .endInValue [], 0⟩
  | cs => ⟨.past .badNumber cs, Utf8.size cs⟩

def NumeralFault.taken (rest : List Char) : NumeralFault :=
  match rest with
  | [] => ⟨.past .endInValue [], 0⟩
  | cs => ⟨.past .badNumber cs, Utf8.size cs - 1⟩

def startsWithDigit : List Char → Bool
  | c :: _ => c.isDigit
  | [] => false

def readExponent (cs : List Char) :
    Except NumeralFault (Option (Option Char × List Char) × List Char) :=
  match cs with
  | c :: cs =>
    if c == 'e' || c == 'E' then
      let (sign, cs) :=
        match cs with
        | '+' :: cs => (some '+', cs)
        | '-' :: cs => (some '-', cs)
        | cs => (none, cs)
      if startsWithDigit cs then
        .ok (some (sign, cs.takeWhile Char.isDigit), cs.dropWhile Char.isDigit)
      else .error (.taken cs)
    else .ok (none, c :: cs)
  | [] => .ok (none, [])

def readFraction (cs : List Char) : Except NumeralFault (Option (List Char) × List Char) :=
  match cs with
  | '.' :: cs =>
    if startsWithDigit cs then .ok (some (cs.takeWhile Char.isDigit), cs.dropWhile Char.isDigit)
    else .error (.left cs)
  | cs => .ok (none, cs)

/-- Digits without a leading zero, unless zero is all. -/
def readWhole (cs : List Char) : Except NumeralFault (List Char × List Char) :=
  match cs with
  | '0' :: cs => if startsWithDigit cs then .error (.left cs) else .ok (['0'], cs)
  | cs =>
    if startsWithDigit cs then .ok (cs.takeWhile Char.isDigit, cs.dropWhile Char.isDigit)
    else .error (.taken cs)

def readUnsigned (negative : Bool) (cs : List Char) : Except NumeralFault (Numeral × List Char) := do
  let (whole, cs) ← readWhole cs
  let (fraction, cs) ← readFraction cs
  let (exponent, cs) ← readExponent cs
  return (⟨negative, whole, fraction, exponent⟩, cs)

def readNumeral (cs : List Char) : Except NumeralFault (Numeral × List Char) :=
  match cs with
  | '-' :: cs => readUnsigned true cs
  | cs => readUnsigned false cs

def NumeralFault.lift {α : Type} : Except NumeralFault α → Except Fault α
  | .ok a => .ok a
  | .error e => .error e.fault

/-- A text that is a number and nothing else. Whatever is left unread makes it a bad number right
there. -/
def wholeNumeral (text : List Char) : Except Fault Numeral :=
  let settle (unread : Nat) (f : Fault) : Fault :=
    if unread == 0 then f else ⟨.badNumber, .leaving (unread - 1)⟩
  match text with
  | [] => .error (.past .endInValue [])
  | c :: cs =>
    if c == '-' || c.isDigit then
      match readNumeral (c :: cs) with
      | .error e => .error (settle e.unread e.fault)
      | .ok (n, []) => .ok n
      | .ok (_, rest) => .error (.past .badNumber rest)
    else .error (.past .badNumber text)

def hexDigit? (c : Char) : Option Nat :=
  let n := c.toNat
  if 48 ≤ n && n ≤ 57 then some (n - 48)
  else if 97 ≤ n && n ≤ 102 then some (n - 87)
  else if 65 ≤ n && n ≤ 70 then some (n - 55)
  else none

def hexValue? (a b c d : Char) : Option Nat := do
  return (((← hexDigit? a) * 16 + (← hexDigit? b)) * 16 + (← hexDigit? c)) * 16 + (← hexDigit? d)

def hexFault (rest : List Char) : Fault :=
  if Utf8.size rest < 4 then .past .endInString [] else ⟨.badEscape, .leaving (Utf8.size rest - 4)⟩

def isHighSurrogate (n : Nat) : Bool := 0xD800 ≤ n && n ≤ 0xDBFF

def isLowSurrogate (n : Nat) : Bool := 0xDC00 ≤ n && n ≤ 0xDFFF

def pairChar (high low : Nat) : Char :=
  Char.ofNat ((high - 0xD800) * 0x400 + (low - 0xDC00) + 0x10000)

def escapeChar? (c : Char) : Option Char :=
  match c with
  | '"' => some '"'
  | '\\' => some '\\'
  | '/' => some '/'
  | 'b' => some '\x08'
  | 'f' => some '\x0c'
  | 'n' => some '\n'
  | 'r' => some '\r'
  | 't' => some '\t'
  | _ => none

/-- What is wrong after a high surrogate that no well-formed escape follows. -/
def pairFault : List Char → Fault
  | [] => .past .endInString []
  | '\\' :: [] => .past .endInString []
  | '\\' :: 'u' :: rest => hexFault rest
  | '\\' :: rest => .past .brokenSurrogatePair rest
  | rest => .past .brokenSurrogatePair rest

def readString (acc : List Char) : List Char → Except Fault (List Char × List Char)
  | [] => .error (.past .endInString [])
  | '"' :: cs => .ok (acc.reverse, cs)
  | '\\' :: 'u' :: a :: b :: c :: d :: cs =>
    match hexValue? a b c d with
    | none => .error (hexFault (a :: b :: c :: d :: cs))
    | some n =>
      if isLowSurrogate n then .error (.before .loneSurrogate cs)
      else if isHighSurrogate n then
        match cs with
        | '\\' :: 'u' :: e :: f :: g :: h :: cs =>
          match hexValue? e f g h with
          | none => .error (hexFault (e :: f :: g :: h :: cs))
          | some m =>
            if isLowSurrogate m then readString (pairChar n m :: acc) cs
            else .error (.before .loneSurrogate cs)
        | cs => .error (pairFault cs)
      else readString (Char.ofNat n :: acc) cs
  | '\\' :: 'u' :: cs => .error (hexFault cs)
  | '\\' :: c :: cs =>
    match escapeChar? c with
    | some e => readString (e :: acc) cs
    | none => .error (.past .badEscape (c :: cs))
  | '\\' :: [] => .error (.past .endInString [])
  | c :: cs =>
    if c.toNat < 0x20 then .error (.past .controlCharacter (c :: cs)) else readString (c :: acc) cs

end LintRelay.Json

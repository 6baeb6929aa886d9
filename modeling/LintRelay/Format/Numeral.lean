import LintRelay.Process.Octets
/-! Whole numbers as programs read them from a text: blanks, a sign, and digits whose base a mark in
front of them may give. Reading stops at the first character that does not belong to the number. -/
namespace LintRelay.Format

def isBlank (c : Char) : Bool := c == ' ' || ('\t' ≤ c && c ≤ '\r')

def digitValue? (c : Char) : Option Nat :=
  if '0' ≤ c && c ≤ '9' then some (c.toNat - 48)
  else if 'a' ≤ c && c ≤ 'z' then some (c.toNat - 87)
  else if 'A' ≤ c && c ≤ 'Z' then some (c.toNat - 55)
  else none

def isDigitOf (base : Nat) (c : Char) : Bool := (digitValue? c).any (· < base)

def valueOf (base : Nat) (digits : Octets) : Nat :=
  digits.foldl (fun n c => base * n + (digitValue? c).getD 0) 0

structure Numeral where
  negative : Bool
  magnitude : Nat
  /-- What follows the number; the whole text, if there is none. -/
  rest : Octets
  /-- Whether there is a number at all. -/
  found : Bool
  deriving DecidableEq, Repr

/-- The base that a mark in front of digits gives, and what follows the mark. Without a mark a zero
in front means octal. -/
def baseMark (text : Octets) : Nat × Octets :=
  match text with
  | '0' :: m :: d :: rest =>
    if (m == 'x' || m == 'X') && isDigitOf 16 d then (16, d :: rest) else (8, text)
  | '0' :: _ => (8, text)
  | _ => (10, text)

namespace Numeral

def read (base? : Option Nat) (text : Octets) : Numeral :=
  let start := text.dropWhile isBlank
  let negative := start.head? == some '-'
  let unsigned := if negative || start.head? == some '+' then start.tail else start
  let (base, digits) :=
    match base? with
    | some b => (b, unsigned)
    | none => baseMark unsigned
  let taken := digits.takeWhile (isDigitOf base)
  if taken.isEmpty then ⟨false, 0, text, false⟩
  else ⟨negative, valueOf base taken, digits.drop taken.length, true⟩

def greatest : Int := Int.pow 2 63 - 1

def least : Int := -Int.pow 2 63

/-- The value, cut off at what 63 bits and a sign can hold; the flag tells whether it was. -/
def signed (n : Numeral) : Int × Bool :=
  let v : Int := if n.negative then -n.magnitude else n.magnitude
  if greatest < v then (greatest, true) else if v < least then (least, true) else (v, false)

/-- The value in 64 bits without a sign. A negative number counts down from the end. -/
def unsigned (n : Numeral) : Nat × Bool :=
  if Nat.pow 2 64 ≤ n.magnitude then (Nat.pow 2 64 - 1, true)
  else if n.negative then ((Nat.pow 2 64 - n.magnitude) % Nat.pow 2 64, false)
  else (n.magnitude, false)

end Numeral
end LintRelay.Format

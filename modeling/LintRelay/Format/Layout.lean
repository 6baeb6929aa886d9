import LintRelay.Format.Floating
/-! Fields of a format: what is printed in a given width, with given marks. -/
namespace LintRelay.Format

structure Layout where
  left : Bool := false
  zeros : Bool := false
  plus : Bool := false
  blank : Bool := false
  alternate : Bool := false
  width : Nat := 0
  precision : Option Nat := none
  deriving DecidableEq, Repr

namespace Layout

def maxWidth : Nat := Nat.pow 2 31 - 1

def isTooLarge (l : Layout) : Bool := maxWidth < l.width || maxWidth < l.precision.getD 0

def pad (l : Layout) (text : Octets) : Octets :=
  let fill := List.replicate (l.width - text.length) ' '
  if l.left then text ++ fill else fill ++ text

def text (l : Layout) (s : Octets) : Octets :=
  l.pad (match l.precision with | some n => s.take n | none => s)

/-- A number with what stands before its digits; zeros for the width come between. -/
def number (l : Layout) (zeros : Bool) (front digits : Octets) : Octets :=
  if zeros && !l.left then
    front ++ List.replicate (l.width - front.length - digits.length) '0' ++ digits
  else l.pad (front ++ digits)

/-- At least as many digits as the precision says. Zero has none if it says none. -/
def digits (l : Layout) (base n : Nat) : Octets :=
  let ds := if n == 0 && l.precision == some 0 then [] else Nat.toDigits base n
  List.replicate (l.precision.getD 0 - ds.length) '0' ++ ds

def sign (l : Layout) (negative : Bool) : Octets :=
  if negative then ['-'] else if l.plus then ['+'] else if l.blank then [' '] else []

def signed (l : Layout) (n : Int) : Octets :=
  l.number (l.zeros && l.precision.isNone) (l.sign (n < 0)) (l.digits 10 n.natAbs)

def unsigned (l : Layout) (kind : Char) (n : Nat) : Octets :=
  let zeros := l.zeros && l.precision.isNone
  match kind with
  | 'o' =>
    let ds := l.digits 8 n
    let ds := if l.alternate && ds.head? != some '0' then '0' :: ds else ds
    l.number zeros [] ds
  | 'x' => l.number zeros (if l.alternate && n != 0 then ['0', 'x'] else []) (l.digits 16 n)
  | 'X' =>
    l.number zeros (if l.alternate && n != 0 then ['0', 'X'] else [])
      ((l.digits 16 n).map Char.toUpper)
  | _ => l.number zeros [] (l.digits 10 n)

/-- A floating point number, as a letter asks for it; a capital letter asks for capital letters. -/
def floating (l : Layout) (p : Precision) (lead : Nat) (kind : Char) (x : Floating) : Octets :=
  let body := x.write p lead kind.toLower l.alternate l.precision
  -- The mark of the base stays in front of the zeros.
  let isHex := kind.toLower == 'a' && x.isFinite
  let front := l.sign x.isNegative ++ (if isHex then body.take 2 else [])
  let shown := l.number (l.zeros && x.isFinite) front (if isHex then body.drop 2 else body)
  if kind.isUpper then shown.map Char.toUpper else shown

end Layout
end LintRelay.Format

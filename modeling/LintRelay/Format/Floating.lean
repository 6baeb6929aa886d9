import LintRelay.Decimal.Shortest
import LintRelay.Format.Numeral
/-! Floating point numbers as programs read and print them. A number is kept exactly, as a mantissa
times a power of two, and every rounding is to the nearest, from halfway to the even one. -/
namespace LintRelay.Format

open Decimal

inductive Floating where
  | finite (negative : Bool) (mantissa : Nat) (exponent : Int)
  | infinite (negative : Bool)
  | undefined (negative : Bool)
  deriving DecidableEq, Repr

/-- How many bits mantissas have, and which exponents there are. -/
structure Precision where
  bits : Nat
  least : Int
  greatest : Int
  deriving DecidableEq, Repr

namespace Precision

def double : Precision := ⟨53, -1074, 971⟩

def extended : Precision := ⟨64, -16445, 16320⟩

/-- The number nearest to a ratio. The flag tells that it lies outside what can be told apart. -/
def nearest (p : Precision) (negative : Bool) (num den : Nat) : Floating × Bool :=
  if num == 0 then (.finite negative 0 p.least, false)
  else
    let guess : Int := (num.log2 : Int) - den.log2
    let below : Bool :=
      if guess < 0 then num * pow2 (-guess).toNat < den else num < den * pow2 guess.toNat
    let top := if below then guess - 1 else guess
    let q := max (top - (p.bits - 1 : Nat)) p.least
    let (n, d) := if q < 0 then (num * pow2 (-q).toNat, den) else (num, den * pow2 q.toNat)
    let m := Binary64.roundQuotient n d
    let (m, q) := if m == pow2 p.bits then (pow2 (p.bits - 1), q + 1) else (m, q)
    if p.greatest < q then (.infinite negative, true)
    else (.finite negative m q, m < pow2 (p.bits - 1) && m * d != n)

/-- More places than this lead beyond all numbers. -/
def enoughPlaces : Nat := 20000

def ofDecimal (p : Precision) (negative : Bool) (digits : Nat) (e : Int) : Floating × Bool :=
  if digits == 0 then (.finite negative 0 p.least, false)
  else if (enoughPlaces : Int) < e then (.infinite negative, true)
  else if e < -(enoughPlaces : Int) - (digits.log2 : Int) then (.finite negative 0 p.least, true)
  else if e < 0 then p.nearest negative digits (pow10 (-e).toNat)
  else p.nearest negative (digits * pow10 e.toNat) 1

def ofBinary (p : Precision) (negative : Bool) (digits : Nat) (e : Int) : Floating × Bool :=
  if digits == 0 then (.finite negative 0 p.least, false)
  else if 4 * (enoughPlaces : Int) < e then (.infinite negative, true)
  else if e < -4 * (enoughPlaces : Int) - (digits.log2 : Int) then
    (.finite negative 0 p.least, true)
  else if e < 0 then p.nearest negative digits (pow2 (-e).toNat)
  else p.nearest negative (digits * pow2 e.toNat) 1

end Precision

namespace Floating

/-- What was read: the number, whether it is out of range, what follows it, and whether there was a
number at all. -/
structure Reading where
  value : Floating
  outOfRange : Bool
  rest : Octets
  found : Bool

def beginsWith (word : String) (text : Octets) : Bool :=
  (text.take word.length).map Char.toLower == word.toList

def readExponent (letter : Char) (text : Octets) : Int × Octets :=
  match text with
  | c :: rest =>
    if c.toLower != letter then (0, text)
    else
      let negative := rest.head? == some '-'
      let unsigned := if negative || rest.head? == some '+' then rest.tail else rest
      let digits := unsigned.takeWhile Char.isDigit
      if digits.isEmpty then (0, text)
      else
        let n : Int := valueOf 10 digits
        (if negative then -n else n, unsigned.drop digits.length)
  | [] => (0, text)

/-- Digits with a point among them: the digits, how many stand after the point, and the rest. -/
def readPlaces (base : Nat) (text : Octets) : Octets × Nat × Octets :=
  let whole := text.takeWhile (isDigitOf base)
  match text.drop whole.length with
  | '.' :: rest =>
    let places := rest.takeWhile (isDigitOf base)
    if whole.isEmpty && places.isEmpty then ([], 0, text)
    else (whole ++ places, places.length, rest.drop places.length)
  | rest => (whole, 0, rest)

def readHex (p : Precision) (negative : Bool) (text : Octets) : Option Reading :=
  let (digits, places, rest) := readPlaces 16 text
  if digits.isEmpty then none
  else
    let (e, rest) := readExponent 'p' rest
    let (value, outOfRange) := p.ofBinary negative (valueOf 16 digits) (e - 4 * (places : Int))
    some ⟨value, outOfRange, rest, true⟩

def readDecimal (p : Precision) (negative : Bool) (text : Octets) : Option Reading :=
  let (digits, places, rest) := readPlaces 10 text
  if digits.isEmpty then none
  else
    let (e, rest) := readExponent 'e' rest
    let (value, outOfRange) := p.ofDecimal negative (valueOf 10 digits) (e - places)
    some ⟨value, outOfRange, rest, true⟩

/-- What may stand in parentheses after the word for an undefined number. -/
def afterUndefined (text : Octets) : Octets :=
  match text with
  | '(' :: rest =>
    match rest.dropWhile fun c => c.isAlphanum || c == '_' with
    | ')' :: rest => rest
    | _ => text
  | _ => text

def read (p : Precision) (text : Octets) : Reading :=
  let start := text.dropWhile isBlank
  let negative := start.head? == some '-'
  let unsigned := if negative || start.head? == some '+' then start.tail else start
  let found : Option Reading :=
    if beginsWith "infinity" unsigned then some ⟨.infinite negative, false, unsigned.drop 8, true⟩
    else if beginsWith "inf" unsigned then some ⟨.infinite negative, false, unsigned.drop 3, true⟩
    else if beginsWith "nan" unsigned then
      some ⟨.undefined negative, false, afterUndefined (unsigned.drop 3), true⟩
    else if beginsWith "0x" unsigned then
      (readHex p negative (unsigned.drop 2)) <|> readDecimal p negative unsigned
    else readDecimal p negative unsigned
  found.getD ⟨.finite false 0 p.least, false, text, false⟩

def ratio (mantissa : Nat) (exponent : Int) : Nat × Nat :=
  if exponent < 0 then (mantissa, pow2 (-exponent).toNat) else (mantissa * pow2 exponent.toNat, 1)

def scaled (num den : Nat) (places : Int) : Nat :=
  if places < 0 then Binary64.roundQuotient num (den * pow10 (-places).toNat)
  else Binary64.roundQuotient (num * pow10 places.toNat) den

/-- Digits with a point before the last `places` of them. A point that nothing follows is written
only if `point` says so. -/
def withPoint (point : Bool) (places : Nat) (n : Nat) : Octets :=
  let digits := Nat.toDigits 10 n
  let digits := List.replicate (places + 1 - digits.length) '0' ++ digits
  let whole := digits.take (digits.length - places)
  if places == 0 then whole ++ (if point then ['.'] else []) else
    whole ++ '.' :: digits.drop (digits.length - places)

def fixed (point : Bool) (places : Nat) (m : Nat) (e : Int) : Octets :=
  let (num, den) := ratio m e
  withPoint point places (scaled num den places)

/-- The digits of a number, one more than `places`, and the power of ten of the first one. -/
def digitsOf (places : Nat) (m : Nat) (e : Int) : Nat × Int :=
  if m == 0 then (0, 0)
  else
    let (num, den) := ratio m e
    let top := Binary64.floorLog10 num den
    let n := scaled num den (places - top)
    if pow10 (places + 1) ≤ n then (pow10 places, top + 1) else (n, top)

def writeExponent (letter : Char) (least : Nat) (e : Int) : Octets :=
  let digits := Nat.toDigits 10 e.natAbs
  letter :: (if e < 0 then '-' else '+') :: List.replicate (least - digits.length) '0' ++ digits

def scientific (point : Bool) (places : Nat) (m : Nat) (e : Int) : Octets :=
  let (n, top) := digitsOf places m e
  withPoint point places n ++ writeExponent 'e' 2 top

/-- Drops zeros at the end of the places, and the point if nothing follows it any more. -/
def dropZeros (text : Octets) : Octets :=
  if text.contains '.' then
    let short := text.reverse.dropWhile (· == '0')
    (if short.head? == some '.' then short.tail else short).reverse
  else text

/-- A given number of digits, with an exponent where that is shorter. -/
def general (keepZeros : Bool) (count : Nat) (m : Nat) (e : Int) : Octets :=
  let count := max count 1
  let (n, top) := digitsOf (count - 1) m e
  let trim (text : Octets) : Octets := if keepZeros then text else dropZeros text
  if -4 ≤ top && top < (count : Int) then
    trim (fixed keepZeros (count - 1 - top).toNat m e)
  else trim (withPoint keepZeros (count - 1) n) ++ writeExponent 'e' 2 top

/-- The mantissa in hexadecimal. The first digit holds `lead` bits of it, the others four each. If
rounding leads beyond the first digit, that begins anew with the exponent of the next one. -/
def hexadecimal (p : Precision) (lead : Nat) (point : Bool) (places? : Option Nat) (m : Nat)
    (e : Int) : Octets :=
  let rest := (p.bits - lead + 3) / 4
  let m := m * pow2 (4 * rest + lead - p.bits)
  let (m, rest) :=
    match places? with
    | some places =>
      if places < rest then (Binary64.roundQuotient m (pow2 (4 * (rest - places))), places)
      else (m * pow2 (4 * (places - rest)), places)
    | none => (m, rest)
  let carried := pow2 (4 * (rest + 1)) ≤ m
  let m := if carried then m / 16 else m
  let digits := Nat.toDigits 16 m
  let digits := List.replicate (rest + 1 - digits.length) '0' ++ digits
  let whole := digits.take (digits.length - rest)
  let places := digits.drop (digits.length - rest)
  let places := if places?.isSome then places else (places.reverse.dropWhile (· == '0')).reverse
  let exponent : Int := if m == 0 then 0 else e + p.bits - lead + (if carried then 4 else 0)
  "0x".toList ++ whole ++ (if places.isEmpty && !point then [] else '.' :: places) ++
    writeExponent 'p' 1 exponent

def isNegative : Floating → Bool
  | .finite negative _ _ => negative
  | .infinite negative => negative
  | .undefined negative => negative

def write (p : Precision) (lead : Nat) (kind : Char) (alternate : Bool) (places? : Option Nat) :
    Floating → Octets
  | .infinite _ => "inf".toList
  | .undefined _ => "nan".toList
  | .finite _ m e =>
    let places := places?.getD 6
    match kind with
    | 'f' => fixed alternate places m e
    | 'e' => scientific alternate places m e
    | 'g' => general alternate places m e
    | _ => hexadecimal p lead alternate places? m e

def isFinite : Floating → Bool
  | .finite .. => true
  | _ => false

end Floating
end LintRelay.Format

import LintRelay.Decimal.Binary64
/-! The fewest decimal digits that read back as a number, and of these the nearest to it. -/
namespace LintRelay.Decimal

/-- The digits `digits` with the point after the first one, times `10 ^ exponent`. -/
structure Scientific where
  digits : Nat
  exponent : Int
  deriving DecidableEq, Repr

namespace Binary64

def digitCount (n : Nat) : Nat := (Nat.toDigits 10 n).length

def floorLog10 (num den : Nat) : Int :=
  if den ≤ num then (digitCount (num / den) : Int) - 1
  else
    let count := digitCount (den / num)
    if den ≤ num * pow10 (count - 1) then -((count : Int) - 1) else -(count : Int)

def ratio (x : Binary64) : Nat × Nat :=
  if x.exponent < 0 then (x.mantissa, pow2 (-x.exponent).toNat)
  else (x.mantissa * pow2 x.exponent.toNat, 1)

/-- Whether `c * 10 ^ k` reads back as `x`: it lies between the midpoints to the neighbours of
`x`, which themselves belong to the even mantissa. -/
def readsBack (x : Binary64) (c : Nat) (k : Int) : Bool :=
  let narrow := x.mantissa == pow2 52 && leastExponent < x.exponent
  let low := 4 * x.mantissa - (if narrow then 1 else 2)
  let high := 4 * x.mantissa + 2
  let e := x.exponent - 2
  let candidate := c * (if k < 0 then 1 else pow10 k.toNat) * (if e < 0 then pow2 (-e).toNat else 1)
  let unit := (if k < 0 then pow10 (-k).toNat else 1) * (if e < 0 then 1 else pow2 e.toNat)
  if x.mantissa % 2 == 0 then low * unit ≤ candidate && candidate ≤ high * unit
  else low * unit < candidate && candidate < high * unit

def withDigits (x : Binary64) (top : Int) (count : Nat) : Option Scientific :=
  let k := top - (count : Int) + 1
  let (num, den) := x.ratio
  let (num, den) := if k < 0 then (num * pow10 (-k).toNat, den) else (num, den * pow10 k.toNat)
  let down := num / den
  let nearest := roundQuotient num den
  let other := if nearest == down then down + 1 else down
  match [nearest, other].find? fun c => 0 < c && x.readsBack c k with
  | none => none
  | some c =>
    if c == pow10 count then some ⟨pow10 (count - 1), top + 1⟩ else some ⟨c, top⟩

/-- Seventeen digits always suffice. -/
def shortest (x : Binary64) : Scientific :=
  let (num, den) := x.ratio
  let top := floorLog10 num den
  ((List.range 17).findSome? fun i => x.withDigits top (i + 1)).getD ⟨0, 0⟩

end Binary64

/-- Where positional writing ends, by the exponent of the leading digit. -/
structure Style where
  least : Int
  greatest : Int
  deriving DecidableEq, Repr

/-- Writes a number: positionally, with at least one decimal place, or with an exponent that always
has its sign. -/
def Style.write (s : Style) (x : Binary64) : List Char :=
  if x.mantissa == 0 then ['0', '.', '0']
  else
    let d := x.shortest
    let digits := Nat.toDigits 10 d.digits
    let digits := (digits.reverse.dropWhile (· == '0')).reverse
    if s.least ≤ d.exponent && d.exponent ≤ s.greatest then
      if d.exponent < 0 then
        '0' :: '.' :: List.replicate (-d.exponent - 1).toNat '0' ++ digits
      else
        let whole := d.exponent.toNat + 1
        let filled := digits ++ List.replicate (whole - digits.length) '0'
        let places := filled.drop whole
        filled.take whole ++ '.' :: (if places.isEmpty then ['0'] else places)
    else
      let head := digits.take 1 ++ (if digits.length ≤ 1 then [] else '.' :: digits.drop 1)
      let sign := if d.exponent < 0 then '-' else '+'
      head ++ 'e' :: sign :: Nat.toDigits 10 d.exponent.natAbs

end LintRelay.Decimal

/-! Nonnegative double-precision numbers as exact values. Every operation rounds the exact result
once, to the nearest number and from halfway to the even one. -/
namespace LintRelay.Decimal

/-- The number `mantissa * 2 ^ exponent`. -/
structure Binary64 where
  mantissa : Nat
  exponent : Int
  deriving DecidableEq, Repr

def pow2 (k : Nat) : Nat := Nat.pow 2 k

def pow10 (k : Nat) : Nat := Nat.pow 10 k

namespace Binary64

def leastExponent : Int := -1074

def greatestExponent : Int := 971

/-- The quotient of two numbers, rounded to the nearest and from halfway to the even one. -/
def roundQuotient (num den : Nat) : Nat :=
  let q := num / den
  let r := num % den
  if den < 2 * r || (2 * r == den && q % 2 == 1) then q + 1 else q

/-- The number nearest to a ratio; none if the ratio is too large for all of them. -/
def ofRatio (num den : Nat) : Option Binary64 :=
  if num == 0 then some ⟨0, leastExponent⟩
  else
    let guess : Int := (num.log2 : Int) - den.log2
    let below : Bool :=
      if guess < 0 then num * pow2 (-guess).toNat < den else num < den * pow2 guess.toNat
    let top := if below then guess - 1 else guess
    let q := max (top - 52) leastExponent
    let m :=
      if q < 0 then roundQuotient (num * pow2 (-q).toNat) den
      else roundQuotient num (den * pow2 q.toNat)
    let (m, q) := if m == pow2 53 then (pow2 52, q + 1) else (m, q)
    if greatestExponent < q then none else some ⟨m, q⟩

def ofScaled (num den : Nat) (e : Int) : Option Binary64 :=
  if e < 0 then ofRatio num (den * pow2 (-e).toNat) else ofRatio (num * pow2 e.toNat) den

def mul (a b : Binary64) : Option Binary64 :=
  ofScaled (a.mantissa * b.mantissa) 1 (a.exponent + b.exponent)

def div (a b : Binary64) : Option Binary64 :=
  ofScaled a.mantissa b.mantissa (a.exponent - b.exponent)

def powerOfTen (k : Nat) : Option Binary64 := ofRatio (pow10 k) 1

def greatestPower : Nat := 308

/-- Scales by a power of ten in steps that each round; none if a step leaves the range. -/
def scale : Nat → Binary64 → Int → Option Binary64
  | 0, x, _ => some x
  | steps + 1, x, e =>
    if e.natAbs ≤ greatestPower then do
      let p ← powerOfTen e.natAbs
      if e < 0 then x.div p else x.mul p
    else if x.mantissa == 0 then some x
    else if 0 < e then none
    else do
      let p ← powerOfTen greatestPower
      scale steps (← x.div p) (e + greatestPower)

/-- The number for the digits `significand` with the decimal point moved by `e` places. Four
steps reach zero from every start. -/
def ofDecimal (significand : Nat) (e : Int) : Option Binary64 := do
  scale 4 (← ofRatio significand 1) e

end Binary64
end LintRelay.Decimal

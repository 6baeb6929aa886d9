import LintRelay.Format.Numeral
/-! Numbers as tools read them from their arguments: decimal digits and a unit. -/
namespace LintRelay.Tool

inductive NumberFault where
  | malformed
  | tooLarge
  deriving DecidableEq, Repr

def maxNumber : Nat := Nat.pow 2 64 - 1

def unitPower? : Char → Option Nat
  | 'k' | 'K' => some 1
  | 'm' | 'M' => some 2
  | 'G' => some 3
  | 'T' => some 4
  | 'P' => some 5
  | 'E' => some 6
  | 'Z' => some 7
  | 'Y' => some 8
  | _ => none

/-- What a unit multiplies by: powers of 1024, or of 1000 with a `B` or a `D` behind. -/
def unit? : Octets → Option Nat
  | [] => some 1
  | ['b'] => some 512
  | [c] => (unitPower? c).map (Nat.pow 1024)
  | [c, 'B'] | [c, 'D'] => (unitPower? c).map (Nat.pow 1000)
  | [c, 'i', 'B'] => (unitPower? c).map (Nat.pow 1024)
  | _ => none

/-- A number with a unit. A unit alone counts once. -/
def readCount (text : Octets) : Except NumberFault Nat :=
  let n := Format.Numeral.read (some 10) text
  if n.negative || text.isEmpty then .error .malformed
  else
    match unit? n.rest with
    | none => .error .malformed
    | some u =>
      let value := (if n.found then n.magnitude else 1) * u
      if maxNumber < value then .error .tooLarge else .ok value

end LintRelay.Tool

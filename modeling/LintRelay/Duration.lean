/-! Spans of time. -/
namespace LintRelay

structure Duration where
  seconds : Nat
  nanos : Nat
  deriving DecidableEq, Repr

namespace Duration

def ofSeconds (n : Nat) : Duration := ⟨n, 0⟩

def inNanos (d : Duration) : Nat := d.seconds * 1000000000 + d.nanos

/-- A number of units with the part `part` of `10 ^ places` after the point, where trailing zeros,
and the point if nothing follows it, are left out. -/
def withPart (whole part places : Nat) : String :=
  let digits := Nat.toDigits 10 part
  let filled := List.replicate (places - digits.length) '0' ++ digits
  let kept := (filled.reverse.dropWhile (· == '0')).reverse
  toString whole ++ (if part == 0 then "" else "." ++ String.ofList kept)

def text (d : Duration) : String :=
  if 0 < d.seconds then withPart d.seconds d.nanos 9 ++ "s"
  else if 1000000 ≤ d.nanos then withPart (d.nanos / 1000000) (d.nanos % 1000000) 6 ++ "ms"
  else if 1000 ≤ d.nanos then withPart (d.nanos / 1000) (d.nanos % 1000) 3 ++ "µs"
  else toString d.nanos ++ "ns"

end Duration
end LintRelay

import LintRelay.Process.Octets
/-! Time zones whose clocks are ahead by the same time all year. -/
namespace LintRelay.Date

structure Zone where
  name : Octets
  /-- How far its clocks are ahead, in seconds. -/
  offset : Int
  deriving DecidableEq, Repr

namespace Zone

def utc : Zone := ⟨"UTC".toList, 0⟩

def clockTime? (text : Octets) : Option Int := do
  let parts ← (text.splitOn ':').mapM fun part =>
    if part.isEmpty || !part.all Char.isDigit then none
    else some (part.foldl (fun n c => 10 * n + ((c.toNat : Int) - 48)) 0)
  match parts with
  | [h] => return 3600 * h
  | [h, m] => return 3600 * h + 60 * m
  | [h, m, s] => return 3600 * h + 60 * m + s
  | _ => none

/-- A zone as a setting names it: a name of at least three letters, then how far its clocks are
behind. Other settings stand for the universal time. -/
def ofSetting (text : Octets) : Zone :=
  let name := text.takeWhile Char.isAlpha
  if name.length < 3 then utc
  else
    match text.drop name.length with
    | '-' :: time => ⟨name, (clockTime? time).getD 0⟩
    | '+' :: time => ⟨name, -(clockTime? time).getD 0⟩
    | time => ⟨name, -(clockTime? time).getD 0⟩

end Zone
end LintRelay.Date

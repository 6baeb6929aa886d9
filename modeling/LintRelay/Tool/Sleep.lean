import LintRelay.Format.Floating
import LintRelay.Tool.Session
/-! `sleep` waits for the sum of some times, given in seconds or with a unit. -/
namespace LintRelay.Tool.Sleep

open Process Format

inductive Choice where
  | help
  | version
  deriving DecidableEq, Repr

def options : Options Choice where
  letters := []
  words := [("help", .help, .nothing), ("version", .version, .nothing)]

def unit? : Octets → Option Nat
  | [] | ['s'] => some 1
  | ['m'] => some 60
  | ['h'] => some 3600
  | ['d'] => some 86400
  | _ => none

/-- Longer than anybody waits, in nanoseconds. -/
def forever : Nat := Nat.pow 10 30

def nanos? (text : Octets) : Option Nat := do
  let r := Floating.read .double text
  if !r.found then none
  let unit ← unit? r.rest
  match r.value with
  | .finite negative m e =>
    if negative && m != 0 then none
    let (num, den) := Floating.ratio m e
    return min forever (num * unit * Nat.pow 10 9 / den)
  | .infinite false => return forever
  | _ => none

def run (args : List Octets) : Use Unit := do
  let given ← Use.arguments options args
  if let some fault := given.fault then Use.misuse fault
  if !given.options.isEmpty then Use.exit 0
  if args.isEmpty then Use.misuse "missing operand".toList
  let times := given.operands.map fun text => (text, nanos? text)
  for (text, time) in times do
    if time.isNone then Use.complain ("invalid time interval ".toList ++ Quote.forReader text)
  if times.any fun t => t.2.isNone then Use.advise
  let total := times.foldl (fun n t => n + t.2.getD 0) 0
  let _ ← Use.call (.sleep total)

end LintRelay.Tool.Sleep

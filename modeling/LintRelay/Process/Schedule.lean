import LintRelay.Process.Kernel
/-! How processes take turns. Each of them has a time of its own, and the one that is furthest behind
does the next step; so they run side by side, as if each had a processor for itself. A process that
waits for another one goes on at the time of what it waited for. -/
namespace LintRelay.Process

def moveCost : Nat := 10

def callCost (c : Call) (r : Reply) : Nat :=
  match c, r with
  | .become .., _ => 150000
  | .sleep _, _ | .spend _, _ => 0
  | .write _ data, _ => 500 + moveCost * data.length
  | _, .data text => 500 + moveCost * text.length
  | _, _ => 500

def forkCost : Nat := 300000

/-- How long it takes until a process that was started does its first step. -/
def birthCost : Nat := forkCost + 100000

namespace Kernel

def timeIsUp (t : Task) : Option Ending :=
  let limit := t.limit .time
  let exceeds (l : Option Nat) : Bool := l.any fun seconds => seconds * Nat.pow 10 9 ≤ t.used
  if exceeds limit.hard then some (.killed sigKill)
  else if exceeds limit.soft then (effect t sigTimeLimit).1
  else none

/-- Goes on after a call, for which some time has passed. -/
def goOn (t : Task) (cost : Nat) (program : Program) : Task :=
  let cost := cost * t.slowness
  { t with program, time := t.time + cost, used := t.used + cost }

def advance (k : Kernel) (t : Task) : Option Kernel :=
  let now := max k.clock t.time
  let k := { k with clock := now }
  let t := { t with time := now }
  match t.program with
  | .exit code => some (k.finish t (t.doomed.getD (.exited code)))
  | .fork child next =>
    let id := k.next
    let born : Task :=
      { t with id, parent := t.id, program := child, time := now + birthCost, kept := [], used := 0 }
    let t := { t with program := next id, time := now + forkCost }
    some { k.setTask t with tasks := (k.setTask t).tasks ++ [born], next := id + 1 }
  | .call c next =>
    match timeIsUp t with
    | some how => some (k.finish t how)
    | none =>
    match k.perform t c with
    | .blocked => none
    | .answer r t k => some (k.setTask (goOn t (callCost c r) (next r)))
    | .again c t k => some (k.setTask { t with program := .call c next })
    | .ended how k => some (k.finish t how)

/-- The processes that can go on, those that are furthest behind first. -/
def queue (k : Kernel) : List Task :=
  (k.tasks.filter fun t => t.ended.isNone && !t.stopped).mergeSort fun a b => a.time ≤ b.time

def step? (k : Kernel) (limit : Option Nat) : Option Kernel :=
  let early (t : Task) : Bool :=
    match limit with
    | some l => max k.clock t.time < l
    | none => true
  (k.queue.filter early).findSome? k.advance

/-- Runs until something holds, or nothing can be done any more, or the limit has come. -/
def run (done : Kernel → Bool) (limit : Option Nat) : (steps : Nat) → Kernel → Kernel
  | 0, k => k
  | steps + 1, k =>
    if done k then k
    else
      match k.step? limit with
      | some k => run done limit steps k
      | none => k

end Kernel
end LintRelay.Process

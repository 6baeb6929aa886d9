import LintRelay.Outcome
import LintRelay.World
/-! Runners: what turns a command into an outcome. A runner may change the world, since the child
process does. -/
namespace LintRelay

structure Runner where
  name : String
  run : Command → Act Failure Outcome

namespace Runner

def start (r : Runner) (c : Command) : Act Failure Outcome := do
  modify fun w => { w with started := w.started ++ [c] }
  r.run c

def scripted (answer : Except Failure Outcome) : Runner where
  name := "scripted"
  run := fun _ => Act.ofExcept answer

end Runner
end LintRelay

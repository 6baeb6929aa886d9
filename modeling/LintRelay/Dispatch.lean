import LintRelay.Config.Store
import LintRelay.Request
import LintRelay.Runner
/-! From a request to a verdict: the file's extension picks the analyzer, the analyzer makes the
command, a runner carries it out, and what it leaves behind is decoded. -/
namespace LintRelay

/-- Reads the verdict, with a note of what was passed over in front of it. -/
def Outcome.read (o : Outcome) (skipPreamble : Bool) : Act Failure Verdict := do
  match o.preambleSize? skipPreamble with
  | some size => Act.log (.skippedPreamble size)
  | none => pure ()
  Act.ofExcept (o.decode skipPreamble)

namespace Analyzer

/-- The command for a request: path and id follow the fixed arguments. -/
def commandFor (a : Analyzer) (r : Request) : Command :=
  (a.baseCommand.withArg r.path.bytes).withArg (Bytes.ofString r.id)

/-- The command with its input: the file's content, if the analyzer wants that. -/
def feed (a : Analyzer) (r : Request) : Act Failure Command := do
  match a.transport with
  | .path => return a.commandFor r
  | .stdin =>
    let content ← Act.because .io (Act.readPath r.path)
    Act.log (.streaming content.length r.path)
    return (a.commandFor r).withStdin content

def noteVerdict (a : Analyzer) (r : Request) : Verdict → Event
  | .issues found => .foundIssues a.name found.length r.path
  | .analysisFailed => .couldNotAnalyze a.name r.path

def judge (a : Analyzer) (r : Request) (o : Outcome) : Act Failure Verdict := do
  let v ← o.read a.skipPreamble
  Act.log (a.noteVerdict r v)
  return v

def invoke (a : Analyzer) (runner : Runner) (r : Request) : Act Failure Verdict := do
  let command ← a.feed r
  Act.log (.invoking a.name runner.name command.line)
  a.judge r (← runner.start command)

end Analyzer

/-- A configuration that was found valid. -/
structure Dispatcher where
  config : Config
  valid : config.validate = .ok ()

namespace Dispatcher

def make (c : Config) : Except Failure Dispatcher :=
  match h : c.validate with
  | .ok () => .ok ⟨c, h⟩
  | .error d => .error (.config d)

def analyzerFor (d : Dispatcher) (p : Path) : Act Failure Analyzer := do
  match ← d.config.route p with
  | some a => return a
  | none => throw (.unsupported p)

def select (d : Dispatcher) (p : Path) : Act Failure Analyzer := do
  let a ← d.analyzerFor p
  Act.log (.routing p a.name)
  return a

def dispatch (d : Dispatcher) (runner : Runner) (r : Request) : Act Failure Verdict := do
  let a ← d.select r.path
  a.invoke runner r

end Dispatcher
end LintRelay

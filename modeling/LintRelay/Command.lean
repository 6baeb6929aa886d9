import LintRelay.Duration
import LintRelay.Path
import LintRelay.Text.Blank
/-! Commands: one child process to run, complete with its arguments and input. -/
namespace LintRelay

structure Command where
  program : String
  args : List Bytes := []
  workingDir : Option Path := none
  env : List (String × String) := []
  stdin : Option Bytes := none
  timeout : Option Duration := none
  deriving DecidableEq, Repr

namespace Command

def withArg (c : Command) (arg : Bytes) : Command := { c with args := c.args ++ [arg] }

def withArgs (c : Command) (args : List Bytes) : Command := { c with args := c.args ++ args }

def withWorkingDir (c : Command) (dir : Path) : Command := { c with workingDir := some dir }

def withEnv (c : Command) (key value : String) : Command :=
  { c with env := c.env ++ [(key, value)] }

def withStdin (c : Command) (data : Bytes) : Command := { c with stdin := some data }

def withTimeout (c : Command) (limit : Duration) : Command := { c with timeout := some limit }

/-- A word of a command line: quotes go around it if it is empty or holds white space. -/
def quoteWord (word : String) : String :=
  if word.toList.isEmpty || word.toList.any Text.isBlank then "'" ++ word ++ "'" else word

/-- The command line as it is shown, not as a shell would need it. -/
def line (c : Command) : String :=
  c.args.foldl (fun text arg => text ++ " " ++ quoteWord arg.display) (quoteWord c.program)

end Command
end LintRelay

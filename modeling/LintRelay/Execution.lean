import LintRelay.Lint
/-! Carrying out what a command line asks for. -/
namespace LintRelay.CommandLine

def Invocation.execute (runner : Runner) : Invocation → Act Trouble Nat
  | .lint options => Lint.run runner options
  | .analyzers config cwd => Config.overview config cwd
  | .init cwd force => Config.setup cwd force

end LintRelay.CommandLine

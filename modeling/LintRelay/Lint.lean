import LintRelay.CommandLine
import LintRelay.Config.InForce
import LintRelay.Dispatch
import LintRelay.Report
/-! Linting one file from the command line. -/
namespace LintRelay.Lint

open CommandLine (LintOptions OutputFormat)

def analysisFailedCode : Nat := 2

def target (file : Path) : Act Trouble Path := do
  if file.isEmpty then throw (.unresolved file .emptyPath)
  let path := Path.absolute (← Act.currentDir) file
  if !(← Act.isFile path) then throw (.fileNotFound file)
  return path

def searchStart (path : Path) : Path := path.parent?.getD (.ofString ".")

def prepare (options : LintOptions) : Act Trouble (Path × Config) := do
  let path ← target options.file
  let config ← Config.inForce options.config (searchStart path)
  return (path, config)

def preview (c : Command) : String :=
  let dir :=
    match c.workingDir with
    | some dir => "Working directory: " ++ dir.display ++ "\n"
    | none => ""
  let env :=
    if c.env.isEmpty then ""
    else "Environment variables:\n" ++ String.join (c.env.map fun (k, v) => "  " ++ k ++ "=" ++ v ++ "\n")
  c.line ++ "\n" ++ dir ++ env

/-- The text of a file of issues, also what is printed in that format. -/
def issuesText (issues : List Issue) : String := (issuesJson issues).prettyText ++ "\n"

def rendered (format : OutputFormat) (file : Path) (issues : List Issue) : String :=
  match format with
  | .text => report file.display issues ++ "\n"
  | .json => issuesText issues

def writeIssues (path : Path) (issues : List Issue) : Act Trouble Unit :=
  Act.because (.issuesUnwritten path) (Act.writePath path (Bytes.ofString (issuesText issues)))

def conclude (options : LintOptions) : Verdict → Act Trouble Nat
  | .issues found => do
    Act.print (rendered options.format options.file found)
    match options.output with
    | some path =>
      writeIssues path found
      Act.log (.wroteIssues found.length path)
    | none => pure ()
    return 0
  | .analysisFailed => do
    Act.complain ("❌ " ++ options.file.display ++ ": the analyzer could not analyze this file")
    return analysisFailedCode

/-- A time limit on the command line replaces those of the configuration. -/
def limited (options : LintOptions) (c : Config) : Config :=
  match options.timeout with
  | some seconds => c.withTimeoutSecs seconds
  | none => c

def run (runner : Runner) (options : LintOptions) : Act Trouble Nat := do
  let (path, config) ← prepare options
  let dispatcher ← Act.because .plain (Act.ofExcept (Dispatcher.make (limited options config)))
  let request ← Act.because .plain (Act.ofExcept (Request.make path options.id))
  if options.dryRun then
    let a ← Act.because .plain (dispatcher.select path)
    Act.print (preview (a.commandFor request))
    return 0
  Act.log (.linting path request.id)
  conclude options (← Act.because (.lint options.file) (dispatcher.dispatch runner request))

end LintRelay.Lint

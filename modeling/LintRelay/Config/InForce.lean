import LintRelay.Config.Store
import LintRelay.Trouble
/-! Which configuration the command line works with, how it is shown and how it is set up. -/
namespace LintRelay

namespace Analyzer

/-- The extensions as they are listed: each after one dot. -/
def extensionList (a : Analyzer) : String :=
  ", ".intercalate (a.extensions.map fun e => String.ofList ('.' :: e.toList.dropWhile (· == '.')))

def summary (a : Analyzer) : String :=
  let dir :=
    match a.workingDir with
    | some dir => "   working dir: " ++ dir.display ++ "\n"
    | none => ""
  let limit :=
    match a.timeoutSecs with
    | some seconds => "   timeout: " ++ toString seconds ++ "s\n"
    | none => ""
  "\n• " ++ a.name ++ " (" ++ a.extensionList ++ ")\n   command: " ++ a.baseCommand.line ++ "\n"
    ++ dir ++ "   transport: " ++ a.transport.name ++ "\n" ++ limit

end Analyzer

namespace Config

/-- The configuration to work with: the one that was named, or the one that governs the start. -/
def inForce (explicit : Option Path) (start : Path) : Act Trouble Config :=
  match explicit with
  | some path => do
    Act.log (.usingConfig path)
    Act.because (.configFrom path) (load path)
  | none => Act.because (.configAbove start) (discover start)

def summary (c : Config) : String :=
  let source := (c.source.map Path.display).getD "built-in defaults"
  "🔧 Config: " ++ source ++ "\n" ++ String.join (c.analyzers.map Analyzer.summary)

def baseDir (dir : Option Path) : Act Trouble Path :=
  match dir with
  | some dir => return dir
  | none => Act.currentDir

def inForceAt (explicit dir : Option Path) : Act Trouble Config := do
  inForce explicit (← baseDir dir)

/-- Lists the analyzers in force at a directory; the exit code. -/
def overview (explicit dir : Option Path) : Act Trouble Nat := do
  Act.print (← inForceAt explicit dir).summary
  return 0

def setupName : String := ".techlint.json"

/-- Writes what is built in to a directory, over a file that is there only if forced to; the exit
code. -/
def setup (dir : Option Path) (force : Bool) : Act Trouble Nat := do
  let path := (← baseDir dir).joinName setupName
  let present ← Act.pathExists path
  if present && !force then
    Act.printLine ("❌ Config already exists at: " ++ path.display)
    Act.printLine "   Use --force to overwrite"
    return 1
  Act.because (.configUnwritten path) (builtIn.save path)
  Act.log (.wroteConfig path)
  Act.printLine ("✅ Created config: " ++ path.display)
  return 0

end Config
end LintRelay

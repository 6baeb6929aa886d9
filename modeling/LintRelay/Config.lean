import LintRelay.Analyzer
import LintRelay.Failure
/-! Configurations: the analyzers, and where they were read from. -/
namespace LintRelay

structure Config where
  analyzers : List Analyzer
  source : Option Path := none
  deriving DecidableEq, Repr

namespace Config

def builtIn : Config := ⟨[Analyzer.csharp], none⟩

/-- The names of configuration files; within a directory the first one counts. -/
def fileNames : List String := [".techlint.json", "techlint.json"]

def analyzerForExtension? (c : Config) (extension : String) : Option Analyzer :=
  c.analyzers.find? (·.handles extension)

/-- The analyzer for a file: the first one that handles its extension. -/
def analyzerFor? (c : Config) (p : Path) : Option Analyzer := do
  c.analyzerForExtension? (← Extension.ofPath? p)

/-- The extensions that analyzers claim so far, each with the analyzer's name. -/
abbrev Claims := List (String × String)

def Claims.owner? (claims : Claims) (extension : String) : Option String :=
  (claims.find? fun claim => claim.1 == extension).map (·.2)

def claim (name : String) (claims : Claims) : List String → Except ConfigDefect Claims
  | [] => .ok claims
  | e :: es =>
    let extension := Extension.normalize e
    if extension.isEmpty then .error (.emptyExtension name)
    else
      match claims.owner? extension with
      | some owner => .error (.claimedTwice extension owner name)
      | none => claim name ((extension, name) :: claims) es

def checkAnalyzer (claims : Claims) (a : Analyzer) : Except ConfigDefect Claims :=
  if Text.allBlank a.name then .error .emptyName
  else if Text.allBlank a.command then .error (.emptyCommand a.name)
  else if a.extensions.isEmpty then .error (.noExtensions a.name)
  else if a.timeoutSecs == some 0 then .error (.zeroTimeout a.name)
  else claim a.name claims a.extensions

def checkAnalyzers (claims : Claims) : List Analyzer → Except ConfigDefect Claims
  | [] => .ok claims
  | a :: as =>
    match checkAnalyzer claims a with
    | .error d => .error d
    | .ok claims => checkAnalyzers claims as

/-- Checks that every analyzer can be used and that no extension is claimed twice. -/
def validate (c : Config) : Except ConfigDefect Unit :=
  if c.analyzers.isEmpty then .error .noAnalyzers
  else
    match checkAnalyzers [] c.analyzers with
    | .error d => .error d
    | .ok _ => .ok ()

/-- Relative working directories are below the directory that holds the file. -/
def anchor (file : Path) (c : Config) : Config :=
  match file.parent? with
  | some base => { c with analyzers := c.analyzers.map (·.anchor base) }
  | none => c

def withTimeoutSecs (c : Config) (n : UInt64) : Config :=
  { c with analyzers := c.analyzers.map (·.withTimeoutSecs n) }

/-- A configuration as JSON; where it was read from is not part of it. -/
def json? (c : Config) : Option Json.Value := do
  return .object [("analyzers", .array (← c.analyzers.mapM (·.json?)))]

open Json

def record : Record (Option (List Analyzer)) where
  title := "struct Config"
  fields := [{
    key := "analyzers"
    required := false
    isGiven := Option.isSome
    read := fun _ cs => do
      let (as, rest) ← readListOf Analyzer.read cs
      return (some as, rest) }]

def read : Read Config := fun cs => do
  let (as, rest) ← record.read none cs
  return (⟨as.getD [], none⟩, rest)

def parse (text : List Char) : Except Fault Config := parseWith read text

end Config
end LintRelay

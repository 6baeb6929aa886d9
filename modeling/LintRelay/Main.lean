import LintRelay.ChildProcess
import LintRelay.Execution
/-! The program. It copies what an invocation may look at from the disk into a world, runs the
invocation there, and brings back what was printed and written. -/
namespace LintRelay.Main

open CommandLine (Invocation Usage)

def configVariable : String := "TECHLINT_CONFIG"

/-- The places where a search from a directory looks. -/
def searched (cwd start : Path) : List Path :=
  (Path.absolute cwd start).ancestors.flatMap fun dir => Config.fileNames.map dir.joinName

/-- The files that an invocation may read or replace. -/
def paths (cwd : Path) : Invocation → List Path
  | .lint o =>
    o.file :: o.config.toList ++ o.output.toList ++
      searched cwd (o.file.parent?.getD (.ofString "."))
  | .analyzers config dir => config.toList ++ searched cwd (dir.getD cwd)
  | .init dir _ => [(dir.getD cwd).joinName Config.setupName]

def copy (files : FileSystem) (cwd : Location) (p : Path) : IO FileSystem := do
  let some text := p.text? | return files
  let place := (← IO.currentDir) / text
  if ← place.isDir then return files.makeDirectory cwd p
  if ← place.pathExists then
    let data ← IO.FS.readBinFile place
    match files.writeWithParents cwd p data.toList with
    | .ok files => return files
    | .error _ => return files
  match p.parent?, place.parent with
  | some dir, some parent => if ← parent.isDir then return files.makeDirectory cwd dir
  | _, _ => pure ()
  return files

def bringBack (before after : FileSystem) : IO Unit := do
  for (place, entry) in after.entries do
    match entry, place.path.text? with
    | .file data, some text =>
      if before.get? place != some entry then
        IO.FS.writeBinFile ((← IO.currentDir) / text) ⟨data.toArray⟩
    | _, _ => pure ()

def surroundings : IO (List (Bytes × Bytes)) := do
  let names := ["PATH", "HOME"]
  let found ← names.filterMapM fun name => do
    return (← IO.getEnv name).map fun value => (Bytes.ofString name, Bytes.ofString value)
  return found

def explain : Usage → String
  | .help => "usage: lint FILE ID | analyzers | init"
  | .version => "1"
  | .nothingGiven => "usage: lint FILE ID | analyzers | init"
  | .badSubcommand => "unrecognized subcommand"
  | .unknownArgument => "unexpected argument"
  | .missingArgument => "a required argument is missing"
  | .badValue => "invalid value"
  | .badNumber => "invalid number"
  | .repeated => "an option was given more than once"
  | .unneededValue => "an option takes no value"
  | .notUtf8 => "invalid UTF-8"

def carryOut (i : Invocation) : IO Nat := do
  let here := Path.ofString (← IO.currentDir).toString
  let cwd : Location := here.names
  let start := Programs.bareSystem.makeDirectory [] here
  let files ← (paths here i).foldlM (fun files p => copy files cwd p) start
  let w : World := { files, cwd, environment := ← surroundings }
  let (result, w) := (i.execute ChildProcess.runner).run w
  bringBack files w.files
  IO.print w.stdout
  IO.eprint w.stderr
  match result with
  | .ok code => return code
  | .error trouble =>
    IO.eprintln ("Error: " ++ ": ".intercalate trouble.chain)
    return 1

end LintRelay.Main

def main (args : List String) : IO UInt32 := do
  let named := (← IO.getEnv LintRelay.Main.configVariable).map LintRelay.Bytes.ofString
  match LintRelay.CommandLine.parse named (args.map LintRelay.Bytes.ofString) with
  | .ok i => return (← LintRelay.Main.carryOut i).toUInt32
  | .error usage =>
    IO.eprintln (LintRelay.Main.explain usage)
    return usage.exitCode.toUInt32

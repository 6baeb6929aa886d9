import LintRelay.Shell.Startup
import LintRelay.Tool
/-! The programs of the system: a shell and a few tools. -/
namespace LintRelay.Programs

open Process

def names : List String := "sh" :: Tool.table.map (·.1)

/-- Whether a program can load what it needs, for which it opens a file. If not, it tells so. -/
def load (name : Octets) : Proc Bool := do
  match ← Proc.openFile ['/'] { reads := true } with
  | .ok fd =>
    Proc.close fd
    return true
  | .error _ =>
    let _ ← Proc.write 2 (name ++ ": error while loading shared libraries: libc.so.6: ".toList ++
      "cannot open shared object file: Error 24\n".toList)
    return false

/-- Runs the program of a name; `depth` bounds how often one program becomes another. -/
def run : (depth : Nat) → String → (args env : List Octets) → Proc Nat
  | 0, _, _, _ => return 126
  | depth + 1, name, args, env => do
    if !(← load (args.headD [])) then return 127
    if name == "sh" then Shell.program (run depth) args env
    else
      match Tool.table.lookup name with
      | some body => Tool.Use.run (args.headD []) env (body args.tail)
      | none => return 127

/-- More often than any program becomes another one. -/
def maxDepth : Nat := 1000000000

def bareSystem : FileSystem :=
  let name (s : String) : Bytes := Bytes.ofString s
  let dev := name "dev"
  let usr := [name "usr", name "bin"]
  let directories := [[name "bin"], [name "usr"], usr, [dev], [dev, name "fd"], [name "tmp"]]
  let devices := [([dev, name "null"], Device.null), ([dev, name "zero"], .zero),
    ([dev, name "full"], .full), ([dev, name "stdin"], .descriptor 0),
    ([dev, name "stdout"], .descriptor 1), ([dev, name "stderr"], .descriptor 2)]
  let descriptors := (List.range 20).map fun n =>
    ([dev, name "fd", name (toString n)], Device.descriptor n)
  ⟨directories.map (·, .directory) ++ (devices ++ descriptors).map (fun d => (d.1, .device d.2)) ++
    names.map (fun p => ([name "bin", name p], .program p)) ++
    names.map (fun p => (usr ++ [name p], .program p))⟩

end LintRelay.Programs

import LintRelay.Config
import LintRelay.Json.Printer
import LintRelay.World
/-! Configuration files: where they are found, how they are read and how they are written. -/
namespace LintRelay

def Extension.note {ε : Type} (p : Path) : Act ε (Option String) := do
  match Extension.written? p with
  | some extension => Act.log (.hasExtension p extension)
  | none => pure ()
  return Extension.ofPath? p

namespace Config

def fileIn? (isFile : Path → Bool) (dir : Path) : Option Path :=
  (fileNames.map dir.joinName).find? isFile

/-- The configuration file in the nearest directory that has one, upwards from the start. -/
def find? (isFile : Path → Bool) (start : Path) : Option Path :=
  start.ancestors.findSome? (fileIn? isFile)

def search {ε : Type} (start : Path) : Act ε (Option Path) := do
  let w ← get
  return find? (w.files.isFile w.cwd) start

/-- What a file's content says when the file is at a path. -/
def ofFile (path : Path) (data : Bytes) : Except Failure Config :=
  match data.text? with
  | none => .error (.io .notUtf8)
  | some text =>
    match parse text.toList with
    | .error fault => .error (.config (.unreadable path text.toList fault))
    | .ok c =>
      let c := { c.anchor path with source := some path }
      match c.validate with
      | .error d => .error (.config d)
      | .ok () => .ok c

def load (path : Path) : Act Failure Config := do
  let data ← Act.because .io (Act.readPath path)
  let c ← Act.ofExcept (ofFile path data)
  Act.log (.loadedConfig c.analyzers.length path)
  return c

def fileText? (c : Config) : Option String := c.json?.map (·.prettyText ++ "\n")

def save (c : Config) (path : Path) : Act Failure Unit :=
  match c.fileText? with
  | none => throw (.config .unwritable)
  | some text => Act.because .io (Act.writePath path (Bytes.ofString text))

/-- The configuration that governs a path: the nearest file above it, or what is built in. -/
def discover (start : Path) : Act Failure Config := do
  match ← search start with
  | some path => load path
  | none =>
    Act.log (.noConfig start)
    return builtIn

def route {ε : Type} (c : Config) (p : Path) : Act ε (Option Analyzer) := do
  let extension ← Extension.note p
  return extension.bind c.analyzerForExtension?

end Config
end LintRelay

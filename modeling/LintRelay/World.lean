import LintRelay.Event
import LintRelay.Failure
import LintRelay.FileSystem
/-! Everything outside that the program can see or change, as one value, and the actions that do
so. An action may fail; what it did before it failed stays done. -/
namespace LintRelay

structure World where
  files : FileSystem
  /-- The current directory. -/
  cwd : Location := []
  /-- The variables that child processes inherit. -/
  environment : List (Bytes × Bytes) := []
  /-- The log so far, oldest line first. -/
  log : List Event := []
  /-- The commands that were handed to a runner, oldest first. -/
  started : List Command := []
  stdout : String := ""
  stderr : String := ""

/-- An action on the world that fails for a reason in `ε` or gives an `α`. -/
abbrev Act (ε α : Type) := ExceptT ε (StateM World) α

namespace Act

def run {ε α : Type} (act : Act ε α) (w : World) : Except ε α × World :=
  (ExceptT.run act).run w

@[simp] theorem run_pure {ε α : Type} (a : α) (w : World) :
    (pure a : Act ε α).run w = (.ok a, w) := rfl

@[simp] theorem run_throw {ε α : Type} (e : ε) (w : World) :
    (throw e : Act ε α).run w = (.error e, w) := rfl

/-- The second action runs in the world that the first one leaves, if that one did not fail. -/
theorem run_bind {ε α β : Type} (act : Act ε α) (f : α → Act ε β) (w : World) :
    (act >>= f).run w =
      match act.run w with
      | (.ok a, w) => (f a).run w
      | (.error e, w) => (.error e, w) := by
  change ((ExceptT.bindCont f (act w).1 : StateM World _) (act w).2) = _
  cases h : act w with
  | mk r w' =>
    cases r with
    | ok a =>
      simp only [run, ExceptT.run, StateT.run, h]
      rfl
    | error e =>
      simp only [run, ExceptT.run, StateT.run, h]
      rfl

theorem run_map {ε α β : Type} (f : α → β) (act : Act ε α) (w : World) :
    (f <$> act).run w = ((act.run w).1.map f, (act.run w).2) := by
  rw [map_eq_pure_bind, run_bind]
  obtain ⟨r, w'⟩ := act.run w
  cases r <;> rfl

@[simp] theorem run_get {ε : Type} (w : World) : (get : Act ε World).run w = (.ok w, w) := rfl

@[simp] theorem run_modify {ε : Type} (f : World → World) (w : World) :
    (modify f : Act ε Unit).run w = (.ok (), f w) := rfl

/-- Turns the reason for which an action fails into another one. -/
def because {ε δ α : Type} (f : ε → δ) (act : Act ε α) : Act δ α :=
  ExceptT.adapt f act

def ofExcept {ε α : Type} (e : Except ε α) : Act ε α := ExceptT.mk (pure e)

@[simp] theorem run_because {ε δ α : Type} (f : ε → δ) (act : Act ε α) (w : World) :
    (because f act).run w = ((act.run w).1.mapError f, (act.run w).2) := rfl

@[simp] theorem run_ofExcept {ε α : Type} (e : Except ε α) (w : World) :
    (ofExcept e).run w = (e, w) := rfl

def log {ε : Type} (e : Event) : Act ε Unit := modify fun w => { w with log := w.log ++ [e] }

@[simp] theorem run_log {ε : Type} (e : Event) (w : World) :
    (log e : Act ε Unit).run w = (.ok (), { w with log := w.log ++ [e] }) := rfl

def print {ε : Type} (text : String) : Act ε Unit :=
  modify fun w => { w with stdout := w.stdout ++ text }

def printLine {ε : Type} (text : String) : Act ε Unit := print (text ++ "\n")

def complain {ε : Type} (text : String) : Act ε Unit :=
  modify fun w => { w with stderr := w.stderr ++ text ++ "\n" }

def currentDir {ε : Type} : Act ε Path := do return (← get).cwd.path

@[simp] theorem run_currentDir {ε : Type} (w : World) :
    (currentDir : Act ε Path).run w = (.ok w.cwd.path, w) := rfl

def isFile {ε : Type} (p : Path) : Act ε Bool := do
  let w ← get
  return w.files.isFile w.cwd p

@[simp] theorem run_isFile {ε : Type} (p : Path) (w : World) :
    (isFile p : Act ε Bool).run w = (.ok (w.files.isFile w.cwd p), w) := rfl

def pathExists {ε : Type} (p : Path) : Act ε Bool := do
  let w ← get
  return w.files.pathExists w.cwd p

def readPath (p : Path) : Act IoError Bytes := do
  let w ← get
  ofExcept (w.files.read w.cwd p)

@[simp] theorem run_readPath (p : Path) (w : World) :
    (readPath p).run w = (w.files.read w.cwd p, w) := rfl

def writePath (p : Path) (data : Bytes) : Act IoError Unit := do
  let w ← get
  let files ← ofExcept (w.files.write w.cwd p data)
  set { w with files := files }

theorem run_writePath (p : Path) (data : Bytes) (w : World) :
    (writePath p data).run w =
      match w.files.write w.cwd p data with
      | .ok files => (.ok (), { w with files := files })
      | .error e => (.error e, w) := by
  simp only [writePath, run_bind, run_get, run_ofExcept]
  cases w.files.write w.cwd p data <;> rfl

end Act
end LintRelay

import LintRelay.Shell.Session
/-! Variables that a command has for itself. What they were before is kept in a frame, and comes back
when the command is done. -/
namespace LintRelay.Shell

open Process

namespace Sh

def pushFrame : Sh Unit := modify fun s => { s with frames := {} :: s.frames }

def keepVariable (name : Octets) : Sh Unit := modify fun s =>
  match s.frames with
  | f :: rest =>
    { s with frames := { f with bindings := (name, s.find? name) :: f.bindings } :: rest }
  | [] => s

/-- Makes a variable one that only the command has. It keeps its value unless there is a new one. A
name that none can have is refused here only if there is no value for it. -/
def makeLocal (name : Octets) (value : Option Octets) (exported : Bool) : Sh Unit := do
  let s ← get
  if value.isNone && (s.find? name).isNone && !isName name then failFor name "bad variable name"
  if value.isSome && s.isReadonly name then failFor name "is read only"
  keepVariable name
  match value, s.find? name with
  | some v, _ =>
    if isName name then assign name v exported
    else modify fun s => s.assign name v exported
  | none, some _ => return
  | none, none => modify fun s => s.putVariable name ⟨none, exported || s.has .allexport, false⟩

def keepFlags : Sh Unit := modify fun s =>
  match s.frames with
  | f :: rest => { s with frames := { f with flags := f.flags <|> some s.flags } :: rest }
  | [] => s

def restoreVariable (s : State) (e : Octets × Option Variable) : State :=
  match e.2 with
  | some v => (s.putVariable e.1 v).afterChange e.1
  | none => (s.dropVariable e.1).afterChange e.1

/-- Lets variables come back. One that was not there before is taken away, which fails for a name that
none can have. -/
def popFrame : Sh Unit := do
  match (← get).frames with
  | [] => return
  | f :: rest =>
    modify fun s => { s with frames := rest }
    for e in f.bindings do
      if e.2.isNone && !isName e.1 then failFor e.1 "bad variable name"
      modify fun s => restoreVariable s e
    modify fun s => { s with flags := f.flags.getD s.flags }

/-- Lets variables come back until only so many frames are left. -/
def popFramesTo (left : Nat) : (steps : Nat) → Sh Unit
  | 0 => return
  | steps + 1 => do
    if (← get).frames.length ≤ left then return
    popFrame
    popFramesTo left steps

end Sh
end LintRelay.Shell

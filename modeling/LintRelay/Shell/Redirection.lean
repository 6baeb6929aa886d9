import LintRelay.Shell.Expansion
import LintRelay.Shell.Jobs
/-! Where commands read from and write to. Before a descriptor gets another meaning, the old one is
kept under a high number, so that it can be given back afterwards. -/
namespace LintRelay.Shell

open Process

/-- A redirection whose words are worked out. -/
inductive Plan where
  | file (fd : Nat) (how : Opening) (path : Octets)
  | copy (fd : Nat) (source : Option Nat)
  | here (fd document : Nat)

namespace Redirection

def plan (capture : Capture) (rs : List Redirect) : Sh (List Plan) :=
  rs.mapM fun r => do
    match r with
    | .file fd how target => return .file fd how (← Expansion.text capture { tilde := true } target)
    | .copy fd source => return .copy fd source
    | .copyNamed fd source =>
      match ← Expansion.text capture { tilde := true } source with
      | ['-'] => return .copy fd none
      | [c] =>
        if c.isDigit then return .copy fd (some (c.toNat - 48))
        else Sh.syntaxError (← get).readLine "Bad fd number"
      | _ => Sh.syntaxError (← get).readLine "Bad fd number"
    | .here fd document => return .here fd document

def reason (e : IoError) (forMissing : String) : String :=
  match e with
  | .noEntry | .notDirectory => forMissing
  | e => e.reason

def modeOf : Opening → OpenMode
  | .read => { reads := true }
  | .write | .overwrite => { writes := true, creates := true, truncates := true }
  | .append => { writes := true, creates := true, appends := true }
  | .both => { reads := true, writes := true, creates := true }

def cannotOpen {α : Type} (path : Octets) (e : IoError) : Sh α :=
  Sh.fail ("cannot open ".toList ++ path ++ ": ".toList ++ (reason e "No such file").toList)

def cannotCreate {α : Type} (path : Octets) (e : IoError) : Sh α :=
  Sh.fail ("cannot create ".toList ++ path ++ ": ".toList ++
    (reason e "Directory nonexistent").toList)

/-- Opens a file; a file that is there already may be protected. -/
def openPath (how : Opening) (path : Octets) : Sh Nat := do
  let protects := how == .write && (← get).has .noclobber
  let mode ←
    if protects then
      match ← Sh.proc (Proc.info path) with
      | .error _ => pure { modeOf how with fresh := true }
      | .ok i =>
        if i.kind == .regular then cannotCreate path .fileExists
        pure { writes := true }
    else pure (modeOf how)
  match ← Sh.proc (Proc.openFile path mode) with
  | .ok fd => return fd
  | .error e => if how == .read then cannotOpen path e else cannotCreate path e

def pipeRoom : Nat := 4096

def openDocument (capture : Capture) (document : Nat) : Sh Nat := do
  match ← Sh.call .pipe with
  | .numbers r w =>
    let d := (← get).documents.getD document default
    let text ←
      if d.expand then Expansion.text capture { quoted := true } d.text
      else pure (Word.unquoted d.text)
    if text.length ≤ pipeRoom then
      let _ ← Sh.proc (Proc.write w text)
    else
      let _ ← Sh.fork do
        Sh.becomeChild false false
        let _ ← Sh.call (.close r)
        for signal in [2, 3, 1] do let _ ← Sh.call (.onSignal signal .ignore)
        let _ ← Sh.call (.onSignal 13 .usual)
        let _ ← Sh.proc (Proc.write w text)
        return 0
    let _ ← Sh.call (.close w)
    return r
  | _ => Sh.failText "Pipe call failed"

/-- Keeps a descriptor under a high number and closes it; nothing, if it was not open. It is closed
even if it cannot be kept. -/
def save (fd : Nat) : Sh (Option Nat) := do
  match ← Sh.proc (Proc.numbered (.keep fd 10)) with
  | .ok kept =>
    let _ ← Sh.call (.close fd)
    return some kept
  | .error .badDescriptor => return none
  | .error e =>
    let _ ← Sh.call (.close fd)
    Sh.failFor (Octets.ofNat fd) e.reason

/-- Notes what a descriptor was before, unless that is known already. -/
def remember (fd : Nat) (isNew : Bool) : Sh Unit := do
  match (← get).savedFds with
  | [] => return
  | saved :: rest =>
    if (saved.lookup fd).isSome then return
    let old ← if isNew then pure none else save fd
    modify fun s => { s with savedFds := ((fd, old) :: saved) :: rest }

def lead (fd source : Nat) : Sh Unit := do
  match ← Sh.proc (Proc.attempt (.copy source fd)) with
  | .ok _ => return
  | .error e => Sh.failFor (Octets.ofNat source) e.reason

/-- Carries out a redirection. With `keeps` the old meaning is kept. -/
def applyPlan (capture : Capture) (keeps : Bool) (p : Plan) : Sh Unit := do
  let install (fd opened : Nat) : Sh Unit := do
    if keeps then remember fd (fd == opened)
    if fd != opened then
      lead fd opened
      let _ ← Sh.call (.close opened)
  match p with
  | .file fd how path => install fd (← openPath how path)
  | .here fd document => install fd (← openDocument capture document)
  | .copy fd none =>
    if keeps then remember fd false
    let _ ← Sh.call (.close fd)
  | .copy fd (some source) =>
    if fd != source then
      if keeps then remember fd false
      lead fd source

def applyForGood (capture : Capture) (ps : List Plan) : Sh Unit :=
  ps.forM (applyPlan capture false)

def apply (capture : Capture) (ps : List Plan) : Sh Unit :=
  ps.forM (applyPlan capture true)

def push : Sh Unit := modify fun s => { s with savedFds := [] :: s.savedFds }

/-- Undoes the last redirections, or with `keep` only forgets what was before. -/
def pop (keep : Bool) : Sh Unit := do
  match (← get).savedFds with
  | [] => return
  | saved :: rest =>
    modify fun s => { s with savedFds := rest }
    for (fd, old) in saved.mergeSort (fun a b => a.1 ≤ b.1) do
      match old with
      | none => if !keep then let _ ← Sh.call (.close fd)
      | some kept =>
        if !keep then let _ ← Sh.call (.copy kept fd)
        let _ ← Sh.call (.close kept)

/-- Undoes redirections until only so many are left. -/
def popTo (left : Nat) : (steps : Nat) → Sh Unit
  | 0 => return
  | steps + 1 => do
    if (← get).savedFds.length ≤ left then return
    pop false
    popTo left steps

/-- Whether redirections can be carried out; if not, the shell has told why. -/
def attempt (capture : Capture) (ps : List Plan) : Sh Bool := do
  match ← Sh.caught (apply capture ps) with
  | .ok _ => return true
  | .error .error => return false
  | .error stop => throw stop

end Redirection
end LintRelay.Shell

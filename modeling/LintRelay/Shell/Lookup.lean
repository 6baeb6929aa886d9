import LintRelay.Shell.Jobs
/-! What the first word of a command names: a function, something that the shell does itself, or a
program in one of the directories of a path. -/
namespace LintRelay.Shell

open Process

structure Builtin where
  name : String
  /-- Whether assignments before it stay, and its errors end the shell. -/
  special : Bool := false
  /-- Whether its arguments may be assignments, which are not cut into fields. -/
  assigns : Bool := false

def builtins : List Builtin :=
  [⟨".", true, false⟩, ⟨":", true, false⟩, ⟨"[", false, false⟩, ⟨"alias", false, true⟩,
    ⟨"bg", false, false⟩, ⟨"break", true, false⟩, ⟨"cd", false, false⟩, ⟨"chdir", false, false⟩,
    ⟨"command", false, false⟩, ⟨"continue", true, false⟩, ⟨"echo", false, false⟩,
    ⟨"eval", true, false⟩, ⟨"exec", true, false⟩, ⟨"exit", true, false⟩, ⟨"export", true, true⟩,
    ⟨"false", false, false⟩, ⟨"fg", false, false⟩, ⟨"getopts", false, false⟩,
    ⟨"hash", false, false⟩, ⟨"jobs", false, false⟩, ⟨"kill", false, false⟩, ⟨"local", true, true⟩,
    ⟨"printf", false, false⟩, ⟨"pwd", false, false⟩, ⟨"read", false, false⟩,
    ⟨"readonly", true, true⟩, ⟨"return", true, false⟩, ⟨"set", true, false⟩, ⟨"shift", true, false⟩,
    ⟨"test", false, false⟩, ⟨"times", true, false⟩, ⟨"trap", true, false⟩, ⟨"true", false, false⟩,
    ⟨"type", false, false⟩, ⟨"ulimit", false, false⟩, ⟨"umask", false, false⟩,
    ⟨"unalias", false, false⟩, ⟨"unset", true, false⟩, ⟨"wait", false, false⟩]

def builtin? (name : Octets) : Option Builtin :=
  let text := String.ofList name
  builtins.find? fun b => b.name == text

def specialNames : List String := (builtins.filter (·.special)).map (·.name)

inductive Found where
  | builtin (b : Builtin)
  | function (body : Command)
  /-- A program; nothing for its path if the name is one itself. -/
  | program (path : Option Octets)
  | nothing (e : IoError)

/-- Where programs are if a command asks for those that come with the system. -/
def systemPath : Octets := "/usr/local/sbin:/usr/local/bin:/usr/sbin:/usr/bin:/sbin:/bin".toList

def directories (path : Octets) : List Octets := path.splitOn ':'

/-- A name in a directory; an empty directory is the one that the shell is in. -/
def within (directory name : Octets) : Octets :=
  if directory.isEmpty then name else directory ++ '/' :: name

namespace Lookup

def pathOf (s : State) : Octets := (s.text? "PATH").getD []

/-- Looks for a program in the directories of a path. If there is none, the reason is that of the
last file that could not be used. -/
def search (name : Octets) (e : IoError) : List Octets → Sh (Except IoError Octets)
  | [] => return .error e
  | d :: rest => do
    let full := within d name
    match ← Sh.proc (Proc.info full) with
    | .error .noEntry | .error .notDirectory => search name e rest
    | .error e => search name e rest
    | .ok i =>
      if i.kind == .regular && i.executable then return .ok full
      else search name .accessDenied rest

/-- What a shell can tell about a name without looking for programs. -/
def inside? (s : State) (name : Octets) (functions : Bool) : Option Found :=
  if name.contains '/' then some (.program none)
  else
    match if functions then s.functions.lookup name else none with
    | some body => some (.function body)
    | none => (builtin? name).map .builtin

/-- What a name stands for. With `path` programs are looked for there only. -/
def find (name : Octets) (functions : Bool) (path : Option Octets) : Sh Found := do
  let s ← get
  match inside? s name functions with
  | some found => return found
  | none =>
    match if path.isNone then s.hashed.lookup name else none with
    | some full => return .program (some full)
    | none =>
      match ← search name .noEntry (directories (path.getD (pathOf s))) with
      | .ok full =>
        if path.isNone then modify fun s => { s with hashed := s.hashed ++ [(name, full)] }
        return .program (some full)
      | .error e => return .nothing e

def reason (e : IoError) : String :=
  match e with
  | .noEntry | .notDirectory => "not found"
  | e => e.reason

def failureStatus (e : IoError) : Nat :=
  match e with
  | .noEntry | .notDirectory | .nameTooLong => 127
  | _ => 126

/-- Becomes a program: the named one, or the first of a name in a path that can be run. It comes back
only if there is none. -/
def become {α : Type} (words : List Octets) (path : Octets) : Sh α := do
  let s ← get
  let name := words.headD []
  let env := s.environment
  let rec attempt (e : IoError) : List Octets → Sh IoError
    | [] => return e
    | p :: rest => do
      match ← Sh.call (.become p words env) with
      | .program program =>
        Sh.proc (fun _ => (s.launch program words env).program)
      | .failed .noEntry | .failed .notDirectory => attempt e rest
      | .failed e => attempt e rest
      | _ => attempt e rest
  let places := if name.contains '/' then [name] else (directories path).map fun d => within d name
  let e ← attempt .noEntry places
  modify fun s => { s with status := failureStatus e }
  Sh.complain (name ++ ": ".toList ++ (reason e).toList)
  throw .finished

end Lookup
end LintRelay.Shell

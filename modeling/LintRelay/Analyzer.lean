import LintRelay.Command
import LintRelay.Extension
import LintRelay.Json.Printer
import LintRelay.Transport
/-! Analyzers: external programs, and the file extensions that are routed to them. -/
namespace LintRelay

/-- Puts a variable into its place; a key that is there gets the new value. -/
def insertVariable (key value : String) : List (String × String) → List (String × String)
  | [] => [(key, value)]
  | (k, v) :: rest =>
    if k == key then (key, value) :: rest
    else if key < k then (key, value) :: (k, v) :: rest
    else (k, v) :: insertVariable key value rest

def Ascending (vars : List (String × String)) : Prop := vars.Pairwise fun a b => a.1 < b.1

theorem key_of_mem_insertVariable {key value : String} {vars : List (String × String)}
    {var : String × String} (h : var ∈ insertVariable key value vars) :
    var.1 = key ∨ var ∈ vars := by
  induction vars with
  | nil =>
    rw [insertVariable, List.mem_singleton] at h
    exact Or.inl (by rw [h])
  | cons head rest ih =>
    obtain ⟨k, v⟩ := head
    rw [insertVariable] at h
    split at h
    · rcases List.mem_cons.mp h with rfl | h
      · exact Or.inl rfl
      · exact Or.inr (List.mem_cons_of_mem _ h)
    · split at h
      · rcases List.mem_cons.mp h with rfl | h
        · exact Or.inl rfl
        · exact Or.inr h
      · rcases List.mem_cons.mp h with rfl | h
        · exact Or.inr List.mem_cons_self
        · exact (ih h).imp id (List.mem_cons_of_mem _)

theorem Ascending.insertVariable {vars : List (String × String)} (h : Ascending vars)
    (key value : String) : Ascending (insertVariable key value vars) := by
  induction vars with
  | nil => exact List.pairwise_singleton _ _
  | cons head rest ih =>
    obtain ⟨k, v⟩ := head
    obtain ⟨hhead, hrest⟩ := List.pairwise_cons.mp h
    rw [LintRelay.insertVariable]
    split
    · next heq =>
      obtain rfl : k = key := by simpa using heq
      exact List.pairwise_cons.mpr ⟨hhead, hrest⟩
    · split
      · next hlt =>
        refine List.pairwise_cons.mpr ⟨?_, h⟩
        intro var hvar
        rcases List.mem_cons.mp hvar with rfl | hvar
        · exact hlt
        · exact String.lt_trans hlt (hhead var hvar)
      · next hne hnlt =>
        have hlt : k < key := by
          rcases Std.lt_trichotomy key k with hlt | heq | hlt
          · exact absurd hlt hnlt
          · exact absurd heq.symm (by simpa using hne)
          · exact hlt
        refine List.pairwise_cons.mpr ⟨?_, ih hrest⟩
        intro var hvar
        rcases key_of_mem_insertVariable hvar with heq | hvar
        · rw [heq]
          exact hlt
        · exact hhead var hvar

/-- Variables by key, sorted, with one value for each key. -/
structure Environment where
  vars : List (String × String)
  ascending : Ascending vars
  deriving DecidableEq, Repr

namespace Environment

def empty : Environment := ⟨[], List.Pairwise.nil⟩

def insert (env : Environment) (key value : String) : Environment :=
  ⟨insertVariable key value env.vars, env.ascending.insertVariable key value⟩

/-- The variables of a list in which a later value of a key replaces an earlier one. -/
def ofList (vars : List (String × String)) : Environment :=
  vars.foldl (fun env var => env.insert var.1 var.2) empty

end Environment

structure Analyzer where
  name : String
  extensions : List String := []
  command : String
  args : List String := []
  workingDir : Option Path := none
  transport : Transport := .path
  timeoutSecs : Option UInt64 := none
  skipPreamble : Bool := false
  env : Environment := .empty
  deriving DecidableEq, Repr

namespace Analyzer

def csharp : Analyzer where
  name := "csharp"
  extensions := ["cs"]
  command := "dotnet"
  args := ["run", "--project", "CSharpLinter"]
  skipPreamble := true

def withExtensions (a : Analyzer) (extensions : List String) : Analyzer :=
  { a with extensions := a.extensions ++ extensions }

def withArgs (a : Analyzer) (args : List String) : Analyzer := { a with args := a.args ++ args }

def withWorkingDir (a : Analyzer) (dir : Path) : Analyzer := { a with workingDir := some dir }

def withTransport (a : Analyzer) (t : Transport) : Analyzer := { a with transport := t }

def withTimeoutSecs (a : Analyzer) (n : UInt64) : Analyzer := { a with timeoutSecs := some n }

def withSkipPreamble (a : Analyzer) (skip : Bool) : Analyzer := { a with skipPreamble := skip }

def withEnv (a : Analyzer) (key value : String) : Analyzer :=
  { a with env := a.env.insert key value }

def handles (a : Analyzer) (extension : String) : Bool :=
  a.extensions.any fun e => Extension.normalize e == Extension.normalize extension

def timeout (a : Analyzer) : Option Duration := a.timeoutSecs.map fun n => Duration.ofSeconds n.toNat

def baseCommand (a : Analyzer) : Command where
  program := a.command
  args := a.args.map Bytes.ofString
  workingDir := a.workingDir
  env := a.env.vars
  timeout := a.timeout

/-- A relative working directory is one below `base`. -/
def anchor (base : Path) (a : Analyzer) : Analyzer :=
  { a with workingDir := a.workingDir.map fun dir => if dir.isAbsolute then dir else base.join dir }

/-- An analyzer as JSON. What has its default and can be left out is left out; a working directory
that is not text has no form in JSON. -/
def json? (a : Analyzer) : Option Json.Value := do
  let dir : List (String × Json.Value) ←
    match a.workingDir with
    | none => some []
    | some dir => (dir.text?).map fun s => [("working_dir", .string s)]
  let timeout : List (String × Json.Value) :=
    match a.timeoutSecs with
    | none => []
    | some n => [("timeout_secs", .number (toString n))]
  let env : List (String × Json.Value) :=
    if a.env.vars.isEmpty then []
    else [("env", .object (a.env.vars.map fun (k, v) => (k, .string v)))]
  return .object (
    [("name", .string a.name), ("extensions", .array (a.extensions.map .string)),
      ("command", .string a.command), ("args", .array (a.args.map .string))] ++
    dir ++ [("transport", a.transport.json)] ++ timeout ++
    [("skip_preamble", .bool a.skipPreamble)] ++ env)

structure Draft where
  name : Option String := none
  extensions : Option (List String) := none
  command : Option String := none
  args : Option (List String) := none
  workingDir : Option (Option Path) := none
  transport : Option Transport := none
  timeoutSecs : Option (Option UInt64) := none
  skipPreamble : Option Bool := none
  env : Option Environment := none

/-- The analyzer of a draft, with the default of each field that was not given. -/
def Draft.finish (d : Draft) : Analyzer where
  name := d.name.getD ""
  extensions := d.extensions.getD []
  command := d.command.getD ""
  args := d.args.getD []
  workingDir := d.workingDir.getD none
  transport := d.transport.getD .path
  timeoutSecs := d.timeoutSecs.getD none
  skipPreamble := d.skipPreamble.getD false
  env := d.env.getD .empty

open Json

/-- A field that is read as a value of one type and put into the draft. -/
def draftField {α : Type} (key : String) (required : Bool) (read : Read α)
    (get : Draft → Option α) (set : Draft → α → Draft) : Component Draft where
  key := key
  required := required
  isGiven := fun d => (get d).isSome
  read := fun d cs => do
    let (a, rest) ← read cs
    return (set d a, rest)

def readPath : Read Path := fun cs => do
  let (s, rest) ← readText "path string" cs
  return (Path.ofString s, rest)

def readEnvironment : Read Environment := fun cs => do
  let (vars, rest) ← readMapOf (readText "a string") cs
  return (Environment.ofList vars, rest)

def record : Record Draft where
  title := "struct AnalyzerConfig"
  fields := [
    draftField "name" true (readText "a string") (·.name) fun d a => { d with name := some a },
    draftField "extensions" true (readListOf (readText "a string")) (·.extensions)
      fun d a => { d with extensions := some a },
    draftField "command" true (readText "a string") (·.command)
      fun d a => { d with command := some a },
    draftField "args" false (readListOf (readText "a string")) (·.args)
      fun d a => { d with args := some a },
    draftField "working_dir" false (readOptional readPath) (·.workingDir)
      fun d a => { d with workingDir := some a },
    draftField "transport" false Transport.read (·.transport)
      fun d a => { d with transport := some a },
    draftField "timeout_secs" false (readOptional readCount) (·.timeoutSecs)
      fun d a => { d with timeoutSecs := some a },
    draftField "skip_preamble" false readBool (·.skipPreamble)
      fun d a => { d with skipPreamble := some a },
    draftField "env" false readEnvironment (·.env) fun d a => { d with env := some a }]

def read : Read Analyzer := fun cs => do
  let (d, rest) ← record.read {} cs
  return (d.finish, rest)

def parse (text : List Char) : Except Fault Analyzer := parseWith read text

end Analyzer
end LintRelay

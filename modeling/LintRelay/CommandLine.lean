import LintRelay.Json.Value
import LintRelay.Path
/-! The command line: a subcommand with its options and arguments. An option's value is settled,
that is checked and recorded, only when the next argument that counts comes along or when the
arguments end; which of two mistakes is reported depends on that. -/
namespace LintRelay.CommandLine

/-- Why a command line is not carried out. Asking for help or for the version is one reason. -/
inductive Usage where
  | help
  | version
  | nothingGiven
  | badSubcommand
  | unknownArgument
  | missingArgument
  | badValue
  | badNumber
  | repeated
  | unneededValue
  | notUtf8
  deriving DecidableEq, Repr

def Usage.exitCode : Usage → Nat
  | .help => 0
  | .version => 0
  | _ => 2

inductive OutputFormat where
  | text
  | json
  deriving DecidableEq, Repr

def OutputFormat.name : OutputFormat → String
  | .text => "text"
  | .json => "json"

def OutputFormat.ofName? (name : Bytes) : Option OutputFormat :=
  if name == Bytes.ofString "text" then some .text
  else if name == Bytes.ofString "json" then some .json
  else none

structure LintOptions where
  file : Path
  id : String
  config : Option Path := none
  format : OutputFormat := .text
  output : Option Path := none
  timeout : Option UInt64 := none
  dryRun : Bool := false
  deriving DecidableEq, Repr

inductive Invocation where
  | lint (options : LintOptions)
  | analyzers (config cwd : Option Path)
  | init (cwd : Option Path) (force : Bool)
  deriving DecidableEq, Repr

inductive Setting where
  | file
  | id
  | config
  | format
  | output
  | timeout
  | dryRun
  | cwd
  | force
  | help
  deriving DecidableEq, Repr

structure Opt where
  setting : Setting
  letter : Option Char
  word : String
  takesValue : Bool

structure Subcommand where
  names : List String
  options : List Opt
  positionals : List Setting
  /-- Whether the variable with the configuration's path counts. -/
  usesVariable : Bool

def helpOption : Opt := ⟨.help, some 'h', "help", false⟩

def lint : Subcommand where
  names := ["lint", "l"]
  options := [
    ⟨.config, some 'c', "config", true⟩, ⟨.format, some 'f', "format", true⟩,
    ⟨.output, some 'o', "output", true⟩, ⟨.timeout, some 't', "timeout", true⟩,
    ⟨.dryRun, some 'd', "dry-run", false⟩, helpOption]
  positionals := [.file, .id]
  usesVariable := true

def analyzers : Subcommand where
  names := ["analyzers", "a"]
  options := [⟨.config, some 'c', "config", true⟩, ⟨.cwd, none, "cwd", true⟩, helpOption]
  positionals := []
  usesVariable := true

def init : Subcommand where
  names := ["init"]
  options := [⟨.cwd, none, "cwd", true⟩, ⟨.force, some 'f', "force", false⟩, helpOption]
  positionals := []
  usesVariable := false

def subcommands : List Subcommand := [lint, analyzers, init]

def Subcommand.isNamed (s : Subcommand) (arg : Bytes) : Bool :=
  s.names.any fun name => Bytes.ofString name == arg

def find? (arg : Bytes) : Option Subcommand := subcommands.find? (·.isNamed arg)

/-- A natural number of 64 bits; a plus sign may stand before it. -/
def wordValue? (text : String) : Option UInt64 :=
  let digits :=
    match text.toList with
    | '+' :: cs => cs
    | cs => cs
  if !digits.isEmpty && digits.all Char.isDigit && Json.digitsValue digits ≤ Json.maxWord then
    some (UInt64.ofNat (Json.digitsValue digits))
  else none

def Setting.check (s : Setting) (value : Bytes) : Except Usage Unit :=
  match s with
  | .id => if value.text?.isNone then .error .notUtf8 else .ok ()
  | .timeout =>
    match value.text? with
    | none => .error .notUtf8
    | some text => if (wordValue? text).isNone then .error .badNumber else .ok ()
  | .format => if (OutputFormat.ofName? value).isNone then .error .badValue else .ok ()
  | _ => if value.isEmpty then .error .badValue else .ok ()

/-- How far the arguments of a subcommand have been read. -/
structure State where
  /-- Settings that are settled. -/
  given : List (Setting × Bytes) := []
  /-- A setting that is not settled, with its value if it has come. -/
  pending : Option (Setting × Option Bytes) := none
  /-- Whether the next argument that is no option is the value of the pending option. -/
  awaiting : Bool := false
  /-- Whether options have ended. -/
  trailing : Bool := false
  positionals : List Setting

namespace State

def value? (st : State) (s : Setting) : Option Bytes :=
  (st.given.find? fun g => g.1 == s).map (·.2)

def has (st : State) (s : Setting) : Bool := (st.value? s).isSome

def record (st : State) (s : Setting) (value : Bytes) : Except Usage State := do
  if st.has s then throw .repeated
  s.check value
  return { st with given := st.given ++ [(s, value)], awaiting := false }

def settle (st : State) : Except Usage State :=
  match st.pending with
  | none => .ok st
  | some (_, none) => .error .badValue
  | some (s, some value) => { st with pending := none }.record s value

def flag (st : State) (s : Setting) : Except Usage State := do
  let st ← st.settle
  if s == .help then throw .help
  if st.has s then throw .repeated
  return { st with given := st.given ++ [(s, [])], awaiting := false }

def attach (st : State) (s : Setting) (value : Bytes) : Except Usage State := do
  (← st.settle).record s value

def await (st : State) (s : Setting) : Except Usage State := do
  return { ← st.settle with pending := some (s, none), awaiting := true }

end State

def dash : UInt8 := 45

def equals : UInt8 := 61

def Subcommand.byWord? (sub : Subcommand) (word : Bytes) : Option Opt :=
  sub.options.find? fun o => Bytes.ofString o.word == word

def Subcommand.byLetter? (sub : Subcommand) (letter : UInt8) : Option Opt :=
  sub.options.find? fun o =>
    match o.letter with
    | some c => c.toNat == letter.toNat
    | none => false

/-- An option by its word, without the dashes; a value may be attached with an equals sign. -/
def readWord (sub : Subcommand) (st : State) (arg : Bytes) : Except Usage State :=
  let word := arg.takeWhile (· != equals)
  let value : Option Bytes := if word.length == arg.length then none else some (arg.drop (word.length + 1))
  match sub.byWord? word with
  | none => .error .unknownArgument
  | some o =>
    match value with
    | some value => if o.takesValue then st.attach o.setting value else .error .unneededValue
    | none => if o.takesValue then st.await o.setting else st.flag o.setting

/-- Options by their letters. Whatever follows the letter of an option with a value is its value,
less one equals sign. -/
def readLetters (sub : Subcommand) (st : State) : Bytes → Except Usage State
  | [] => .ok st
  | letter :: rest =>
    match sub.byLetter? letter with
    | none => .error .unknownArgument
    | some o =>
      if o.takesValue then
        match rest with
        | [] => st.await o.setting
        | b :: value => st.attach o.setting (if b == equals then value else b :: value)
      else do readLetters sub (← st.flag o.setting) rest

def readPlain (st : State) (arg : Bytes) : Except Usage State :=
  match st.awaiting, st.pending with
  | true, some (s, _) => .ok { st with pending := some (s, some arg), awaiting := false }
  | _, _ =>
    match st.positionals with
    | [] => .error .unknownArgument
    | s :: rest => do
      return { ← st.settle with pending := some (s, some arg), positionals := rest }

def readArg (sub : Subcommand) (st : State) (arg : Bytes) : Except Usage State :=
  if st.trailing then readPlain st arg
  else
    match arg with
    | [a, b] =>
      if a == dash && b == dash then .ok { st with trailing := true, awaiting := false }
      else if a == dash then readLetters sub st [b]
      else readPlain st arg
    | a :: b :: rest =>
      if a == dash && b == dash then readWord sub st rest
      else if a == dash then readLetters sub st (b :: rest)
      else readPlain st arg
    | _ => readPlain st arg

def readArgs (sub : Subcommand) (st : State) : List Bytes → Except Usage State
  | [] => st.settle
  | arg :: args =>
    match readArg sub st arg with
    | .error u => .error u
    | .ok st => readArgs sub st args

/-- The variable counts if the option was not given; only then is it looked at. -/
def readVariable (sub : Subcommand) (named : Option Bytes) (st : State) : Except Usage State :=
  match named with
  | some value => if sub.usesVariable && !st.has .config then st.record .config value else .ok st
  | none => .ok st

def State.path? (st : State) (s : Setting) : Option Path := (st.value? s).map Path.mk

def State.text (st : State) (s : Setting) : String := ((st.value? s).bind Bytes.text?).getD ""

def lintOptions (st : State) (file : Bytes) : LintOptions where
  file := ⟨file⟩
  id := st.text .id
  config := st.path? .config
  format := ((st.value? .format).bind OutputFormat.ofName?).getD .text
  output := st.path? .output
  timeout := (st.value? .timeout).bind fun _ => wordValue? (st.text .timeout)
  dryRun := st.has .dryRun

def readSubcommand (sub : Subcommand) (named : Option Bytes) (args : List Bytes) :
    Except Usage State := do
  let st ← readArgs sub { positionals := sub.positionals } args
  let st ← readVariable sub named st
  if sub.positionals.all st.has then return st else throw .missingArgument

/-- The words after a request for help have to lead to a subcommand. -/
def readHelp : List Bytes → Usage
  | [] => .help
  | [arg] =>
    if (find? arg).isSome || arg == Bytes.ofString "help" then .help else .badSubcommand
  | _ => .badSubcommand

/-- What stands before a subcommand: only requests for help and for the version. -/
def readLeading (arg : Bytes) : Usage :=
  match arg with
  | a :: b :: rest =>
    if a != dash then .badSubcommand
    else if b == dash then
      let word := rest.takeWhile (· != equals)
      let known := word == Bytes.ofString "help" || word == Bytes.ofString "version"
      if !known then .unknownArgument
      else if word.length != rest.length then .unneededValue
      else if word == Bytes.ofString "help" then .help
      else .version
    else if b.toNat == 'h'.toNat then .help
    else if b.toNat == 'V'.toNat then .version
    else .unknownArgument
  | _ => .badSubcommand

/-- Reads a command line without the program's name. `named` is the path of a configuration that
the environment names. -/
def parse (named : Option Bytes) (args : List Bytes) : Except Usage Invocation :=
  match args with
  | [] => .error .nothingGiven
  | arg :: args =>
    if arg == [dash, dash] then
      match args with
      | [] => .error .nothingGiven
      | next :: _ =>
        .error (if (find? next).isSome || next == Bytes.ofString "help" then .unknownArgument
          else .badSubcommand)
    else if arg == Bytes.ofString "help" then .error (readHelp args)
    else if lint.isNamed arg then do
      let st ← readSubcommand lint named args
      return .lint (lintOptions st ((st.value? .file).getD []))
    else if analyzers.isNamed arg then do
      let st ← readSubcommand analyzers named args
      return .analyzers (st.path? .config) (st.path? .cwd)
    else if init.isNamed arg then do
      let st ← readSubcommand init named args
      return .init (st.path? .cwd) (st.has .force)
    else .error (readLeading arg)

end LintRelay.CommandLine

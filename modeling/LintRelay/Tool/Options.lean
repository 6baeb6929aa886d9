import LintRelay.Process.Octets
/-! The options of a command line. An option is a letter after a dash, several of them possibly
together, or a word after two dashes, of which as much is needed as tells it from the others. Options
may stand between the operands, unless a tool says otherwise; two dashes alone end them. -/
namespace LintRelay.Tool

inductive Takes where
  | nothing
  | required
  | optional
  deriving DecidableEq, Repr

structure Options (α : Type) where
  letters : List (Char × α × Takes)
  words : List (String × α × Takes)
  /-- Whether the first operand ends the options. -/
  inOrder : Bool := false

/-- What a command line holds: options with their values as far as they are understood, operands,
and what is wrong with the first option that is not understood. -/
structure Arguments (α : Type) where
  options : List (α × Octets) := []
  operands : List Octets := []
  fault : Option Octets := none

namespace Options

variable {α : Type} [DecidableEq α]

inductive Match (α : Type) where
  | none
  | one (name : String) (option : α) (takes : Takes)
  | several (names : List String)

/-- The option that a word stands for. A word that is spelled out stands for itself alone. -/
def find (o : Options α) (name : Octets) : Match α :=
  match o.words.find? fun w => w.1.toList == name with
  | some (n, a, t) => .one n a t
  | none =>
    match o.words.filter fun w => name.isPrefixOf w.1.toList with
    | [] => .none
    | (n, a, t) :: more =>
      if more.all fun w => w.2.1 == a && w.2.2 == t then .one n a t
      else .several (n :: more.map (·.1))

def quoted (text : Octets) : Octets := '\x27' :: text ++ ['\x27']

/-- Reads a word after two dashes; `next` is the argument that follows it. The answer tells whether
that argument is used up. -/
def readWord (o : Options α) (text : Octets) (next : Option Octets) :
    Except Octets (α × Octets × Bool) :=
  let name := text.takeWhile (· != '=')
  let value := if name.length < text.length then some (text.drop (name.length + 1)) else none
  match o.find name with
  | .none => .error ("unrecognized option ".toList ++ quoted ("--".toList ++ text))
  | .several names =>
    let choices := names.map fun n => ' ' :: quoted ("--".toList ++ n.toList)
    .error ("option ".toList ++ quoted ("--".toList ++ text) ++
      " is ambiguous; possibilities:".toList ++ choices.flatten)
  | .one full a takes =>
    let shown := "option ".toList ++ quoted ("--".toList ++ full.toList)
    match takes, value, next with
    | .nothing, some _, _ => .error (shown ++ " doesn't allow an argument".toList)
    | .nothing, none, _ => .ok (a, [], false)
    | _, some v, _ => .ok (a, v, false)
    | .optional, none, _ => .ok (a, [], false)
    | .required, none, some v => .ok (a, v, true)
    | .required, none, none => .error (shown ++ " requires an argument".toList)

def readLetters (o : Options α) (next : Option Octets) (seen : List (α × Octets)) :
    Octets → List (α × Octets) × Except Octets Bool
  | [] => (seen, .ok false)
  | c :: cs =>
    match o.letters.find? fun l => l.1 == c with
    | none => (seen, .error ("invalid option -- ".toList ++ quoted [c]))
    | some (_, a, .nothing) => readLetters o next (seen ++ [(a, [])]) cs
    | some (_, a, .optional) => (seen ++ [(a, cs)], .ok false)
    | some (_, a, .required) =>
      if !cs.isEmpty then (seen ++ [(a, cs)], .ok false)
      else
        match next with
        | some v => (seen ++ [(a, v)], .ok true)
        | none => (seen, .error ("option requires an argument -- ".toList ++ quoted [c]))

/-- Reads a command line. The flag tells whether the next argument is already used up. -/
def readFrom (o : Options α) (got : Arguments α) : Bool → List Octets → Arguments α
  | _, [] => got
  | true, _ :: rest => readFrom o got false rest
  | false, arg :: rest =>
    match arg with
    | ['-', '-'] => { got with operands := got.operands ++ rest }
    | '-' :: '-' :: text =>
      match o.readWord text rest.head? with
      | .ok (a, v, used) => readFrom o { got with options := got.options ++ [(a, v)] } used rest
      | .error e => { got with fault := some e }
    | '-' :: c :: cs =>
      match o.readLetters rest.head? [] (c :: cs) with
      | (seen, .ok used) => readFrom o { got with options := got.options ++ seen } used rest
      | (seen, .error e) => { got with options := got.options ++ seen, fault := some e }
    | _ =>
      let got := { got with operands := got.operands ++ [arg] }
      if o.inOrder then { got with operands := got.operands ++ rest }
      else readFrom o got false rest

/-- Reads a command line; with `inOrder` the first operand ends the options for any tool. -/
def read (o : Options α) (inOrder : Bool) (args : List Octets) : Arguments α :=
  readFrom { o with inOrder := o.inOrder || inOrder } {} false args

end Options
end LintRelay.Tool

import LintRelay.Format.Numeral
import LintRelay.Shell.Syntax
/-! Arithmetic in scripts: whole numbers of 64 bits that wrap around, variables, assignments, and the
operators of expressions with their precedence. An expression is computed while it is read. -/
namespace LintRelay.Shell.Arithmetic

open Format

inductive Operator where
  | mul
  | div
  | rem
  | add
  | sub
  | shiftLeft
  | shiftRight
  | less
  | lessEqual
  | greater
  | greaterEqual
  | equal
  | notEqual
  | bitAnd
  | bitXor
  | bitOr
  deriving DecidableEq, Repr

inductive Symbol where
  | eof
  | number (n : Int)
  | name (text : Octets)
  | operator (o : Operator)
  /-- An assignment, possibly of what an operator makes of the old value. -/
  | assign (o : Option Operator)
  | and
  | or
  | not
  | complement
  | question
  | colon
  | openParen
  | closeParen
  | unknown
  deriving DecidableEq, Repr

inductive Fault where
  | malformed (problem : String)
  /-- A variable whose value is no number. -/
  | illegal (text : Octets)
  /-- A quotient that no number can be. -/
  | overflow

/-- Operators with a smaller number bind tighter. -/
def Operator.level : Operator → Nat
  | .mul | .div | .rem => 0
  | .add | .sub => 1
  | .shiftLeft | .shiftRight => 2
  | .less | .lessEqual | .greater | .greaterEqual => 3
  | .equal | .notEqual => 4
  | .bitAnd => 5
  | .bitXor => 6
  | .bitOr => 7

def loosest : Nat := 8

/-- The spelling of operators. A longer spelling comes before one that it begins with. -/
def spellings : List (String × Symbol) :=
  [("<<=", .assign (some .shiftLeft)), (">>=", .assign (some .shiftRight)),
    ("<<", .operator .shiftLeft), (">>", .operator .shiftRight), ("<=", .operator .lessEqual),
    (">=", .operator .greaterEqual), ("<", .operator .less), (">", .operator .greater),
    ("==", .operator .equal), ("=", .assign none), ("!=", .operator .notEqual), ("!", .not),
    ("||", .or), ("|=", .assign (some .bitOr)), ("|", .operator .bitOr), ("&&", .and),
    ("&=", .assign (some .bitAnd)), ("&", .operator .bitAnd), ("*=", .assign (some .mul)),
    ("*", .operator .mul), ("/=", .assign (some .div)), ("/", .operator .div),
    ("%=", .assign (some .rem)), ("%", .operator .rem), ("+=", .assign (some .add)),
    ("+", .operator .add), ("-=", .assign (some .sub)), ("-", .operator .sub),
    ("^=", .assign (some .bitXor)), ("^", .operator .bitXor), ("~", .complement),
    ("?", .question), (":", .colon), ("(", .openParen), (")", .closeParen)]

def symbol (text : Octets) : Symbol × Octets :=
  let text := text.dropWhile fun c => c == ' ' || c == '\t' || c == '\n'
  match text with
  | [] => (.eof, [])
  | c :: rest =>
    if c.isDigit then
      let n := Numeral.read none text
      (.number n.signed.1, n.rest)
    else if isNameStart c then
      (.name (text.takeWhile isNamePart), text.dropWhile isNamePart)
    else
      match spellings.find? fun s => s.1.toList.isPrefixOf text with
      | some (spelled, s) => (s, text.drop spelled.length)
      | none => (.unknown, rest)

/-- What is still to be read, and what has been assigned, latest first. -/
structure State where
  current : Symbol
  rest : Octets
  assigned : List (Octets × Int) := []

abbrev Compute (α : Type) := ExceptT Fault (StateM State) α

def advance : Compute Unit := modify fun s =>
  let (current, rest) := symbol s.rest
  { s with current, rest }

def fail {α : Type} (problem : String) : Compute α := throw (.malformed problem)

/-- A value as 64 bits with a sign hold it. -/
def wrap (n : Int) : Int := Int.bmod n (Nat.pow 2 64)

def bits (n : Int) : Nat := (n % Int.pow 2 64).toNat

def ofBool (b : Bool) : Int := if b then 1 else 0

/-- A variable's value as a number. Blanks around the number do not count. -/
def numberOf (value : Octets) : Except Fault Int :=
  let n := Numeral.read none value
  let (v, tooLarge) := n.signed
  if tooLarge || !(n.rest.dropWhile isBlank).isEmpty then .error (.illegal value) else .ok v

section

variable (lookup : Octets → Option Octets)

def valueOf (name : Octets) : Compute Int := do
  match (← get).assigned.lookup name with
  | some v => return v
  | none =>
    match numberOf ((lookup name).getD []) with
    | .ok v => return v
    | .error e => throw e

def apply (o : Operator) (a b : Int) : Compute Int := do
  match o with
  | .mul => return wrap (a * b)
  | .add => return wrap (a + b)
  | .sub => return wrap (a - b)
  | .div | .rem =>
    if b == 0 then fail "division by zero"
    if a == Numeral.least && b == -1 then throw .overflow
    return if o == .div then a.tdiv b else a.tmod b
  | .shiftLeft => return wrap (a * Int.pow 2 (bits b % 64))
  | .shiftRight => return a >>> (bits b % 64)
  | .less => return ofBool (a < b)
  | .lessEqual => return ofBool (a ≤ b)
  | .greater => return ofBool (b < a)
  | .greaterEqual => return ofBool (b ≤ a)
  | .equal => return ofBool (a == b)
  | .notEqual => return ofBool (a != b)
  | .bitAnd => return wrap (bits a &&& bits b : Nat)
  | .bitXor => return wrap (bits a ^^^ bits b : Nat)
  | .bitOr => return wrap (bits a ||| bits b : Nat)

/-- Reads and computes a part of an expression. With `skip` it is only read. -/
inductive Part where
  | assignment
  | condition
  | or
  | and
  /-- Operands joined by operators. -/
  | operators
  /-- The operators after a first operand that bind tighter than a given level. -/
  | more (left : Int) (level : Nat)
  | operand

def assignTo (skip : Bool) (name : Octets) (o : Option Operator) (v : Int) : Compute Int := do
  if skip then return v
  let v ←
    match o with
    | none => pure v
    | some o => apply o (← valueOf lookup name) v
  modify fun s => { s with assigned := (name, v) :: s.assigned }
  return v

def operator? : Compute (Option Operator) := do
  match (← get).current with
  | .operator o => return some o
  | _ => return none

def part : (depth : Nat) → (skip : Bool) → Part → Compute Int
  | 0, _, _ => fail "expecting primary"
  | depth + 1, skip, .assignment => do
    let s ← get
    match s.current, (symbol s.rest).1 with
    | .name name, .assign o =>
      advance
      advance
      assignTo lookup skip name o (← part depth skip .assignment)
    | _, _ => part depth skip .condition
  | depth + 1, skip, .condition => do
    let a ← part depth skip .or
    if (← get).current != .question then return a
    advance
    let b ← part depth (skip || a == 0) .assignment
    if (← get).current != .colon then fail "expecting ':'"
    advance
    let c ← part depth (skip || a != 0) .condition
    return if a != 0 then b else c
  | depth + 1, skip, .or => do
    let a ← part depth skip .and
    if (← get).current != .or then return a
    advance
    let b ← part depth (skip || a != 0) .or
    return ofBool (a != 0 || b != 0)
  | depth + 1, skip, .and => do
    let a ← part depth skip .operators
    if (← get).current != .and then return a
    advance
    let b ← part depth (skip || a == 0) .and
    return ofBool (a != 0 && b != 0)
  | depth + 1, skip, .operators => do
    let a ← part depth skip .operand
    part depth skip (.more a loosest)
  | depth + 1, skip, .more a level => do
    match ← operator? with
    | none => return a
    | some o =>
      if level ≤ o.level then return a
      advance
      let b ← part depth skip .operand
      let b ←
        match ← operator? with
        | some next =>
          if next.level < o.level then part depth skip (.more b o.level) else pure b
        | none => pure b
      let v ← if skip then pure b else apply o a b
      part depth skip (.more v level)
  | depth + 1, skip, .operand => do
    match (← get).current with
    | .number n =>
      advance
      return n
    | .name name =>
      advance
      if skip then return 0 else valueOf lookup name
    | .openParen =>
      advance
      let v ← part depth skip .assignment
      if (← get).current != .closeParen then fail "expecting ')'"
      advance
      return v
    | .operator .add =>
      advance
      part depth skip .operand
    | .operator .sub =>
      advance
      return wrap (-(← part depth skip .operand))
    | .not =>
      advance
      return ofBool ((← part depth skip .operand) == 0)
    | .complement =>
      advance
      return wrap (-(← part depth skip .operand) - 1)
    | _ => fail "expecting primary"

/-- The value of an expression, and the assignments that it makes, in order. If there is no value,
they are those that come before the fault. -/
def evaluate (text : Octets) : Except Fault Int × List (Octets × Int) :=
  let (current, rest) := symbol text
  let compute : Compute Int := do
    let v ← part lookup (8 * text.length + 16) false .assignment
    if (← get).current != .eof then fail "expecting EOF"
    return v
  let (result, s) := (ExceptT.run compute).run { current, rest }
  (result, s.assigned.reverse)

end
end LintRelay.Shell.Arithmetic

import LintRelay.Format.Numeral
import LintRelay.Shell.Session
/-! Conditions about texts, numbers and files, as `test` has them. -/
namespace LintRelay.Shell.Builtin

open Process Format

inductive TestKind where
  | unary
  | binary
  | not
  | and
  | or
  | openParen
  | closeParen
  deriving DecidableEq, Repr

def unaryTests : List Octets :=
  "rwxefdcbpugkstznhLOGS".toList.map fun c => ['-', c]

def binaryTests : List Octets :=
  ["=", "!=", "<", ">", "-eq", "-ne", "-ge", "-gt", "-le", "-lt", "-nt", "-ot", "-ef"].map
    String.toList

def testKind? (text : Octets) : Option TestKind :=
  if unaryTests.contains text then some .unary
  else if binaryTests.contains text then some .binary
  else
    match text with
    | ['!'] => some .not
    | ['-', 'a'] => some .and
    | ['-', 'o'] => some .or
    | ['('] => some .openParen
    | [')'] => some .closeParen
    | _ => none

def testFault {α : Type} (about : Octets) (message : String) : Sh α :=
  if about.isEmpty then Sh.failText message else Sh.failFor about message

def testNumber (text : Octets) : Sh Int := do
  let n := Numeral.read (some 10) text
  let (value, tooLarge) := n.signed
  if !n.found || tooLarge || !(n.rest.dropWhile isBlank).isEmpty then Sh.illegalNumber text
  return value

def fileTest (letter : Char) (path : Octets) : Sh Bool := do
  match ← Sh.proc (Proc.info path) with
  | .error _ => return false
  | .ok i =>
    return match letter with
      | 'e' | 'r' | 'w' | 'O' | 'G' => true
      | 'x' => i.executable
      | 'f' => i.kind == .regular
      | 'd' => i.kind == .directory
      | 'c' => i.kind == .character
      | 'p' => i.kind == .pipe
      | 's' => i.size != 0
      | _ => false

def unaryTest (op arg : Octets) : Sh Bool := do
  match op with
  | ['-', 'z'] => return arg.isEmpty
  | ['-', 'n'] => return !arg.isEmpty
  | ['-', 't'] =>
    let _ ← testNumber arg
    return false
  | ['-', c] => fileTest c arg
  | _ => return false

def compareFiles (op a b : Octets) : Sh Bool := do
  let x ← Sh.proc (Proc.info a)
  let y ← Sh.proc (Proc.info b)
  return match x, y with
    | .ok x, .ok y =>
      match op with
      | ['-', 'n', 't'] => y.changed < x.changed
      | ['-', 'o', 't'] => x.changed < y.changed
      | _ => x.identity == y.identity
    | _, _ => false

def binaryTest (op a b : Octets) : Sh Bool := do
  let compare (f : Int → Int → Bool) : Sh Bool := do
    let x ← testNumber a
    let y ← testNumber b
    return f x y
  match String.ofList op with
  | "=" => return a == b
  | "!=" => return a != b
  | "<" => return !Octets.le b a
  | ">" => return !Octets.le a b
  | "-eq" => compare (· == ·)
  | "-ne" => compare (· != ·)
  | "-ge" => compare fun x y => y ≤ x
  | "-gt" => compare fun x y => y < x
  | "-le" => compare fun x y => x ≤ y
  | "-lt" => compare fun x y => x < y
  | _ => compareFiles op a b

/-- What the word at the front of the arguments is there: an operator, an operand, or nothing. -/
inductive TestToken where
  | none
  | operand
  | operator (k : TestKind) (text : Octets)

/-- A unary operator is an operand if nothing follows it, or a binary operator does and something
after that. -/
def testToken (args : List Octets) : TestToken :=
  match args with
  | [] => .none
  | text :: rest =>
    match testKind? text with
    | Option.none => .operand
    | some k =>
      let isOperand : Bool :=
        match k, rest with
        | .unary, [] => true
        | .unary, [_] => false
        | .unary, next :: _ :: _ => testKind? next == some .binary
        | .openParen, [] => true
        | _, _ => false
      if isOperand then .operand else .operator k text

mutual

/-- Conditions of which one must hold. The arguments begin with the word that the token is for; what
is left begins with the last word that was used. -/
def anyOf : (steps : Nat) → TestToken → List Octets → Bool → Sh (Bool × List Octets)
  | 0, _, args, soFar => return (soFar, args)
  | steps + 1, t, args, soFar => do
    let (r, args) ← allOf steps t args true
    let soFar := soFar || r
    match testToken args.tail with
    | .operator .or _ =>
      let args := args.drop 2
      anyOf steps (testToken args) args soFar
    | _ => return (soFar, args)

def allOf : (steps : Nat) → TestToken → List Octets → Bool → Sh (Bool × List Octets)
  | 0, _, args, soFar => return (soFar, args)
  | steps + 1, t, args, soFar => do
    let (r, args) ← notOf steps t args
    let soFar := soFar && r
    match testToken args.tail with
    | .operator .and _ =>
      let args := args.drop 2
      allOf steps (testToken args) args soFar
    | _ => return (soFar, args)

def notOf : (steps : Nat) → TestToken → List Octets → Sh (Bool × List Octets)
  | 0, _, args => return (false, args)
  | steps + 1, t, args => do
    match t with
    | .operator .not _ =>
      let next := testToken args.tail
      let args := if next matches .none then args else args.tail
      let (r, args) ← notOf steps next args
      return (!r, args)
    | t => single steps t args

def single : (steps : Nat) → TestToken → List Octets → Sh (Bool × List Octets)
  | 0, _, args => return (false, args)
  | steps + 1, t, args => do
    match t with
    | .none => return (false, args)
    | .operator .openParen _ =>
      let args := args.tail
      let next := testToken args
      if next matches .operator .closeParen _ then return (false, args)
      let (r, args) ← anyOf steps next args false
      let args := args.tail
      if !(testToken args matches .operator .closeParen _) then
        testFault [] "closing paren expected"
      return (r, args)
    | .operator .unary op =>
      match args.tail with
      | [] => testFault op "argument expected"
      | arg :: rest => return (← unaryTest op arg, arg :: rest)
    | _ =>
      let text := args.headD []
      match testToken args.tail with
      | .operator .binary op =>
        match args.drop 2 with
        | [] => testFault op "argument expected"
        | b :: rest => return (← binaryTest op text b, b :: rest)
      | _ => return (!text.isEmpty, args)

end

/-- The condition that arguments state; the status is zero if it holds. With three or four of them a
few forms come first. -/
def condition : (steps : Nat) → (negated : Bool) → List Octets → Sh Nat
  | 0, _, _ => return 1
  | steps + 1, negated, args => do
    if args.isEmpty then return if negated then 0 else 1
    let isBinary := args.length == 3 && (args[1]?.bind testKind?) == some .binary
    let mayStrip := (args.length == 3 || args.length == 4) && !isBinary
    if mayStrip && args.head? == some ['!'] && !(args.head? == some ['('] ) then
      condition steps true args.tail
    else
      let args :=
        if mayStrip && args.head? == some ['('] && args.getLast? == some [')'] then
          args.tail.dropLast
        else args
      let first : TestToken := if isBinary then .operand else testToken args
      let (r, rest) ← anyOf (4 * args.length + 8) first args false
      match rest with
      | about :: _ :: _ => testFault about "unexpected operator"
      | _ => return if r != negated then 0 else 1

def test (args : List Octets) : Sh Nat := condition (args.length + 1) false args

def bracket (args : List Octets) : Sh Nat := do
  if (args.getLast?.getD []).head? != some ']' then Sh.failText "missing ]"
  test args.dropLast

end LintRelay.Shell.Builtin

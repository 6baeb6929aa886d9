import LintRelay.Decimal.Shortest
import LintRelay.Json.Skip
/-! Values of a known type. A record is an object with known fields, or the list of its fields in
the order in which they are declared; members that are not fields are passed over. -/
namespace LintRelay.Json

/-- Why a value of a known type is refused. Some causes have no place of their own; they get one
from the record around them, together with what was left of the text by then. -/
inductive Halt where
  | fault (f : Fault)
  | loose (cause : Cause) (rest : List Char)
  deriving Repr

abbrev Read (α : Type) := List Char → Except Halt (α × List Char)

def Halt.lift {α : Type} : Except Fault α → Except Halt α
  | .ok a => .ok a
  | .error f => .error (.fault f)

/-- A fault that keeps no place is one of the whole text. -/
def Halt.settle : Halt → Fault
  | .fault f => f
  | .loose cause _ => ⟨cause, .nowhere⟩

def refuse {α : Type} (wanted : String) (cs : List Char) : Except Halt α :=
  .error (.fault (typeFault wanted cs))

def readText (wanted : String) : Read String := fun cs =>
  match skipSpace cs with
  | '"' :: cs => do
    let (s, cs) ← Halt.lift (readString [] cs)
    return (String.ofList s, cs)
  | cs => refuse wanted cs

def readBool : Read Bool := fun cs =>
  match skipSpace cs with
  | 't' :: cs => do return (true, ← Halt.lift (readWord ['r', 'u', 'e'] cs))
  | 'f' :: cs => do return (false, ← Halt.lift (readWord ['a', 'l', 's', 'e'] cs))
  | cs => refuse "a boolean" cs

def readOptional {α : Type} (read : Read α) : Read (Option α) := fun cs =>
  match skipSpace cs with
  | 'n' :: cs => do return (none, ← Halt.lift (readWord ['u', 'l', 'l'] cs))
  | cs => do
    let (a, cs) ← read cs
    return (some a, cs)

def readItemsWith {α : Type} (read : Read α) (steps : Nat) (acc : List α) : Read (List α) := fun cs =>
  match steps with
  | 0 => .error (.fault (.past .endInValue []))
  | steps + 1 => do
    let (a, cs) ← read cs
    match ← Halt.lift (afterItem cs) with
    | .done cs => return ((a :: acc).reverse, cs)
    | .next cs => readItemsWith read steps (a :: acc) cs

def readListOf {α : Type} (read : Read α) : Read (List α) := fun cs =>
  match skipSpace cs with
  | '[' :: cs =>
    match skipSpace cs with
    | [] => .error (.fault (.past .endInList []))
    | ']' :: cs => .ok ([], cs)
    | cs => readItemsWith read (cs.length + 1) [] cs
  | cs => refuse "a sequence" cs

def readEntriesWith {α : Type} (read : Read α) (steps : Nat) (acc : List (String × α))
    (key : String) : Read (List (String × α)) := fun cs =>
  match steps with
  | 0 => .error (.fault (.past .endInValue []))
  | steps + 1 => do
    let cs ← Halt.lift (readColon cs)
    let (a, cs) ← read cs
    let acc := (key, a) :: acc
    match ← Halt.lift (afterMember cs) with
    | .done cs => return (acc.reverse, cs)
    | .next cs =>
      let (key, cs) ← Halt.lift (readString [] cs)
      readEntriesWith read steps acc (String.ofList key) cs

/-- The members of an object whose values have one type, in the order of the text. -/
def readMapOf {α : Type} (read : Read α) : Read (List (String × α)) := fun cs =>
  match skipSpace cs with
  | '\x7b' :: cs =>
    match skipSpace cs with
    | [] => .error (.fault (.past .endInObject []))
    | '\x7d' :: cs => .ok ([], cs)
    | '"' :: cs => do
      let (key, cs) ← Halt.lift (readString [] cs)
      readEntriesWith read (cs.length + 1) [] (String.ofList key) cs
    | cs => .error (.fault (.past .keyExpected cs))
  | cs => refuse "a map" cs

/-- Digits are gathered as long as the number fits a word. The answer is the number and the digits
that did not fit. -/
def gatherDigits (n : Nat) : List Char → Nat × List Char
  | [] => (n, [])
  | d :: ds =>
    let m := n * 10 + (d.toNat - 48)
    if maxWord < m then (n, d :: ds) else gatherDigits m ds

def maxExponent : Nat := 2147483647

/-- The exponent, or the digits left after the one that made it too large. -/
def gatherExponent (n : Nat) : List Char → Except (List Char) Nat
  | [] => .ok n
  | d :: ds =>
    let m := n * 10 + (d.toNat - 48)
    if maxExponent < m then .error ds else gatherExponent m ds

def floatStyle : Decimal.Style := ⟨-5, 15⟩

/-- A number that is not a machine integer, as the nearest double-precision number; `rest` is what
follows it in the text. -/
def Numeral.float (n : Numeral) (rest : List Char) : Except Fault Found := do
  let (significand, excess) := gatherDigits 0 n.whole
  let (significand, point) :=
    match n.fraction with
    | none => (significand, (excess.length : Int))
    | some ds =>
      let (m, left) := gatherDigits significand ds
      (m, (excess.length : Int) - (ds.length - left.length : Nat))
  let shown (x : Decimal.Binary64) : Found :=
    .float (String.ofList ((if n.negative then ['-'] else []) ++ floatStyle.write x))
  let exponent : Except (List Char) Int :=
    match n.exponent with
    | none => .ok 0
    | some (sign, ds) =>
      match gatherExponent 0 ds with
      | .ok e => .ok (if sign == some '-' then -(e : Int) else e)
      | .error left => .error left
  match exponent with
  | .ok e =>
    match Decimal.Binary64.ofDecimal significand (point + e) with
    | some x => return shown x
    | none => throw (.before .numberOutOfRange rest)
  | .error left =>
    if significand != 0 && (n.exponent.bind (·.1)) != some '-' then
      throw (.before .numberOutOfRange (left ++ rest))
    else return shown ⟨0, Decimal.Binary64.leastExponent⟩

def readCount : Read UInt64 := fun cs =>
  let cs := skipSpace cs
  match cs with
  | [] => .error (.fault (.past .endInValue []))
  | c :: _ =>
    if c == '-' || c.isDigit then do
      let (n, rest) ← Halt.lift (NumeralFault.lift (readNumeral cs))
      if n.isMachineInteger then
        if n.negative then
          throw (.fault (.before (.wrongValue (.integer (String.ofList n.text)) "u64") rest))
        else return (UInt64.ofNat (digitsValue n.whole), rest)
      else
        let found ← Halt.lift (n.float rest)
        throw (.fault (.before (.wrongType found "u64") rest))
    else refuse "u64" cs

/-- One field of a record that is gathered in a value of type `σ`. -/
structure Component (σ : Type) where
  key : String
  required : Bool
  isGiven : σ → Bool
  read : σ → Read σ

structure Record (σ : Type) where
  title : String
  fields : List (Component σ)

namespace Record

variable {σ : Type}

def listTitle (r : Record σ) : String :=
  r.title ++ " with " ++ toString r.fields.length ++
    (if r.fields.length == 1 then " element" else " elements")

/-- A member: a field, which may come once, or something to pass over. -/
def readMember (r : Record σ) (s : σ) (key : String) : Read σ := fun cs =>
  match r.fields.find? (·.key == key) with
  | some field => do
    if field.isGiven s then throw (.loose (.duplicateField key) cs)
    let cs ← Halt.lift (readColon cs)
    field.read s cs
  | none => do
    let cs ← Halt.lift (readColon cs)
    return (s, ← Halt.lift (skipValue cs))

def readMembers (r : Record σ) (steps : Nat) (s : σ) (key : String) : Read σ := fun cs =>
  match steps with
  | 0 => .error (.fault (.past .endInValue []))
  | steps + 1 => do
    let (s, cs) ← r.readMember s key cs
    match ← Halt.lift (afterMember cs) with
    | .done cs => return (s, cs)
    | .next cs =>
      let (key, cs) ← Halt.lift (readString [] cs)
      r.readMembers steps s (String.ofList key) cs

def missing? (r : Record σ) (s : σ) : Option String :=
  (r.fields.find? fun field => field.required && !field.isGiven s).map (·.key)

/-- What is left after the end of an object around a loose fault, if its end comes next. -/
def leaveObject (cs : List Char) : List Char :=
  match skipSpace cs with
  | '\x7d' :: cs => cs
  | cs => cs

/-- What is left after the end of a list around a loose fault; a comma is passed, too. -/
def leaveList (cs : List Char) : List Char :=
  match skipSpace cs with
  | ']' :: cs => cs
  | ',' :: cs => skipSpace cs
  | cs => cs

def place {α : Type} (leave : List Char → List Char) : Except Halt α → Except Halt α
  | .error (.loose cause rest) => .error (.fault (.before cause (leave rest)))
  | result => result

def readObject (r : Record σ) (empty : σ) : Read σ := fun cs => do
  let (s, cs) ←
    match skipSpace cs with
    | [] => .error (.fault (.past .endInObject []))
    | '\x7d' :: cs => .ok (empty, cs)
    | '"' :: cs => do
      let (key, cs) ← Halt.lift (readString [] cs)
      place leaveObject (r.readMembers (cs.length + 1) empty (String.ofList key) cs)
    | cs => .error (.fault (.past .keyExpected cs))
  match r.missing? s with
  | some name => throw (.fault (.before (.missingField name) cs))
  | none => return (s, cs)

/-- The fields of a record that is a list, from the field with this index on. `first` tells that no
item has been read. -/
def readFields (r : Record σ) (fields : List (Component σ)) (index : Nat) (first : Bool) (s : σ) :
    Read σ := fun cs =>
  let absent (rest : List Char) : Except Halt (σ × List Char) :=
    match fields.findIdx? (·.required) with
    | some i => .error (.fault (.before (.wrongLength (index + i) r.listTitle) rest))
    | none => .ok (s, rest)
  match fields with
  | [] => do return (s, ← Halt.lift (endList cs))
  | field :: fields =>
    if first then
      match skipSpace cs with
      | [] => .error (.fault (.past .endInList []))
      | ']' :: rest => absent rest
      | cs => do
        let (s, cs) ← field.read s cs
        r.readFields fields (index + 1) false s cs
    else do
      match ← Halt.lift (afterItem cs) with
      | .done rest => absent rest
      | .next cs =>
        let (s, cs) ← field.read s cs
        r.readFields fields (index + 1) false s cs

def read (r : Record σ) (empty : σ) : Read σ := fun cs =>
  match skipSpace cs with
  | '[' :: cs => place leaveList (r.readFields r.fields 0 true empty cs)
  | '\x7b' :: cs => r.readObject empty cs
  | cs => refuse r.title cs

end Record

def parseWith {α : Type} (read : Read α) (cs : List Char) : Except Fault α :=
  match read cs with
  | .error h => .error h.settle
  | .ok (a, rest) => do
    endText rest
    return a

end LintRelay.Json

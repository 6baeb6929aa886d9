/-! JSON values. A number is the text it was written with, and an object keeps its members in the
order in which their keys first came. -/
namespace LintRelay.Json

inductive Value where
  | null
  | bool (b : Bool)
  | number (text : String)
  | string (s : String)
  | array (items : List Value)
  | object (members : List (String × Value))
  deriving Inhabited, Repr

/-- Puts a member into an object: a key that is there already keeps its place. -/
def insertMember (members : List (String × Value)) (key : String) (value : Value) :
    List (String × Value) :=
  match members with
  | [] => [(key, value)]
  | (k, v) :: rest =>
    if k == key then (key, value) :: rest else (k, v) :: insertMember rest key value

def lookupMember (members : List (String × Value)) (key : String) : Option Value :=
  match members with
  | [] => none
  | (k, v) :: rest => if k == key then some v else lookupMember rest key

namespace Value

def get? (v : Value) (key : String) : Option Value :=
  match v with
  | .object members => lookupMember members key
  | _ => none

def asString? : Value → Option String
  | .string s => some s
  | _ => none

mutual

/-- Equality of values. Numbers are compared by their text; the order of an object's members does
not count. -/
def same : Value → Value → Bool
  | .null, .null => true
  | .bool a, .bool b => a == b
  | .number a, .number b => a == b
  | .string a, .string b => a == b
  | .array as, .array bs => sameItems as bs
  | .object as, .object bs => as.length == bs.length && sameMembers as bs
  | _, _ => false

def sameItems : List Value → List Value → Bool
  | [], [] => true
  | a :: as, b :: bs => same a b && sameItems as bs
  | _, _ => false

def sameMembers : List (String × Value) → List (String × Value) → Bool
  | [], _ => true
  | (k, a) :: as, bs =>
    (match lookupMember bs k with
      | some b => same a b
      | none => false) && sameMembers as bs

end

end Value

def digitsValue (cs : List Char) : Nat := cs.foldl (fun n c => n * 10 + (c.toNat - 48)) 0

def maxWord : Nat := 18446744073709551615

/-- A number as a 64-bit natural number: plain digits that are not too many. -/
def Value.asWord? : Value → Option Nat
  | .number text =>
    let cs := text.toList
    if !cs.isEmpty && cs.all Char.isDigit && digitsValue cs ≤ maxWord then some (digitsValue cs)
    else none
  | _ => none

end LintRelay.Json

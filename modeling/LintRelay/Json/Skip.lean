import LintRelay.Json.Reader
/-! Passing over a value that nobody asked for. The brackets that are open stand on a stack, so
depth has no limit; surrogates are not paired, and the faults differ a little from the reader's. -/
namespace LintRelay.Json

inductive Bracket where
  | list
  | object
  deriving DecidableEq, Repr

def Bracket.close : Bracket → Char
  | .list => ']'
  | .object => '\x7d'

def Bracket.separatorFault : Bracket → Cause
  | .list => .listSeparatorExpected
  | .object => .objectSeparatorExpected

def Bracket.endFault : Bracket → Cause
  | .list => .endInList
  | .object => .endInObject

def skipString : List Char → Except Fault (List Char)
  | [] => .error (.past .endInString [])
  | '"' :: cs => .ok cs
  | '\\' :: 'u' :: a :: b :: c :: d :: cs =>
    match hexValue? a b c d with
    | none => .error (hexFault (a :: b :: c :: d :: cs))
    | some _ => skipString cs
  | '\\' :: 'u' :: cs => .error (hexFault cs)
  | '\\' :: c :: cs =>
    match escapeChar? c with
    | some _ => skipString cs
    | none => .error (.past .badEscape (c :: cs))
  | '\\' :: [] => .error (.past .endInString [])
  | c :: cs =>
    if c.toNat < 0x20 then .error (.before .controlCharacter (c :: cs)) else skipString cs

/-- A number; a digit that is missing makes it a bad number even at the end of the text. -/
def skipNumeral (cs : List Char) : Except Fault (List Char) :=
  match readNumeral cs with
  | .ok (_, cs) => .ok cs
  | .error e => .error { e.fault with cause := .badNumber }

def skipKey (cs : List Char) : Except Fault (List Char) :=
  match skipSpace cs with
  | [] => .error (.past .endInObject [])
  | '"' :: cs => do readColon (← skipString cs)
  | cs => .error (.past .keyExpected cs)

/-- After a value, or right after an opening bracket if `fresh`: closes brackets until the next
value starts. The answer is what is left and the brackets that are open then. -/
def closeBrackets (fresh : Bool) (cs : List Char) :
    List Bracket → Except Fault (List Char × List Bracket)
  | [] => .ok (cs, [])
  | top :: below =>
    match skipSpace cs with
    | [] => .error (.past top.endFault [])
    | c :: rest =>
      if c == ',' && !fresh then .ok (rest, top :: below)
      else if c == top.close then closeBrackets false rest below
      else if fresh then .ok (c :: rest, top :: below)
      else .error (.past top.separatorFault (c :: rest))

/-- One value that is not a container, or the opening bracket of one. -/
def skipHead (cs : List Char) : Except Fault (List Char × Option Bracket) :=
  match skipSpace cs with
  | [] => .error (.past .endInValue [])
  | 'n' :: cs => do return (← readWord ['u', 'l', 'l'] cs, none)
  | 't' :: cs => do return (← readWord ['r', 'u', 'e'] cs, none)
  | 'f' :: cs => do return (← readWord ['a', 'l', 's', 'e'] cs, none)
  | '"' :: cs => do return (← skipString cs, none)
  | '[' :: cs => .ok (cs, some .list)
  | '\x7b' :: cs => .ok (cs, some .object)
  | c :: cs =>
    if c == '-' || c.isDigit then do return (← skipNumeral (c :: cs), none)
    else .error (.past .valueExpected (c :: cs))

def skipValueWith (steps : Nat) (stack : List Bracket) (cs : List Char) :
    Except Fault (List Char) :=
  match steps with
  | 0 => .error (.past .endInValue [])
  | steps + 1 =>
    match skipHead cs with
    | .error f => .error f
    | .ok (cs, opened) =>
      match closeBrackets opened.isSome cs (opened.toList ++ stack) with
      | .error f => .error f
      | .ok (cs, []) => .ok cs
      | .ok (cs, .list :: stack) => skipValueWith steps (.list :: stack) cs
      | .ok (cs, .object :: stack) =>
        match skipKey cs with
        | .error f => .error f
        | .ok cs => skipValueWith steps (.object :: stack) cs

def skipValue (cs : List Char) : Except Fault (List Char) := skipValueWith (stepsFor cs) [] cs

end LintRelay.Json

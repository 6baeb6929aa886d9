import LintRelay.Json.Lexeme
/-! The strict reader of JSON values. Containers nest at most `maxDepth` deep. The readers take a
step count that bounds their recursion; one step per character of the text is enough, and `parse`
supplies that many. -/
namespace LintRelay.Json

def maxDepth : Nat := 127

/-- An object whose first key is this one is a number: its value is a string with the digits. -/
def numberKey : String := "$serde_json::private::Number"

def Numeral.isMachineInteger (n : Numeral) : Bool :=
  n.fraction.isNone && n.exponent.isNone &&
    if n.negative then 0 < digitsValue n.whole && digitsValue n.whole ≤ 9223372036854775808
    else digitsValue n.whole ≤ maxWord

/-- The fault of a value that is not of the wanted type. A value that is itself broken gives its
own fault; a container is blamed at its bracket, anything else at its end. -/
def typeFault (wanted : String) (cs : List Char) : Fault :=
  let blame (found : Found) (rest : List Char) : Fault := .before (.wrongType found wanted) rest
  let word (found : Found) (letters : List Char) (rest : List Char) : Fault :=
    match readWord letters rest with
    | .ok rest => blame found rest
    | .error f => f
  match cs with
  | [] => .past .endInValue []
  | 'n' :: rest => word .null ['u', 'l', 'l'] rest
  | 't' :: rest => word (.bool true) ['r', 'u', 'e'] rest
  | 'f' :: rest => word (.bool false) ['a', 'l', 's', 'e'] rest
  | '"' :: rest =>
    match readString [] rest with
    | .ok (s, rest) => blame (.string (String.ofList s)) rest
    | .error f => f
  | '[' :: _ => blame .sequence cs
  | '\x7b' :: _ => blame .map cs
  | c :: _ =>
    if c == '-' || c.isDigit then
      match readNumeral cs with
      | .ok (n, rest) =>
        blame (if n.isMachineInteger then .integer (String.ofList n.text) else .number) rest
      | .error e => e.fault
    else .past .valueExpected cs

def readColon (cs : List Char) : Except Fault (List Char) :=
  match skipSpace cs with
  | [] => .error (.past .endInObject [])
  | ':' :: cs => .ok cs
  | cs => .error (.past .colonExpected cs)

/-- What may follow an item of a list: its end, or a comma and the start of the next item. -/
inductive AfterItem where
  | done (rest : List Char)
  | next (rest : List Char)

def afterItem (cs : List Char) : Except Fault AfterItem :=
  match skipSpace cs with
  | [] => .error (.past .endInList [])
  | ']' :: cs => .ok (.done cs)
  | ',' :: cs =>
    match skipSpace cs with
    | [] => .error (.past .endInValue [])
    | ']' :: rest => .error (.past .trailingComma (']' :: rest))
    | cs => .ok (.next cs)
  | cs => .error (.past .listSeparatorExpected cs)

/-- What may follow a member of an object: its end, or a comma and the next key, whose opening
quote is read. -/
def afterMember (cs : List Char) : Except Fault AfterItem :=
  match skipSpace cs with
  | [] => .error (.past .endInObject [])
  | '\x7d' :: cs => .ok (.done cs)
  | ',' :: cs =>
    match skipSpace cs with
    | [] => .error (.past .endInValue [])
    | '"' :: cs => .ok (.next cs)
    | '\x7d' :: rest => .error (.past .trailingComma ('\x7d' :: rest))
    | cs => .error (.past .keyExpected cs)
  | cs => .error (.past .objectSeparatorExpected cs)

def endObject (cs : List Char) : Except Fault (List Char) :=
  match skipSpace cs with
  | [] => .error (.past .endInObject [])
  | '\x7d' :: cs => .ok cs
  | ',' :: rest => .error (.past .trailingComma (',' :: rest))
  | cs => .error (.past .trailingText cs)

def endList (cs : List Char) : Except Fault (List Char) :=
  match skipSpace cs with
  | [] => .error (.past .endInList [])
  | ']' :: cs => .ok cs
  | ',' :: cs =>
    match skipSpace cs with
    | ']' :: rest => .error (.past .trailingComma (']' :: rest))
    | cs => .error (.past .trailingText cs)
  | cs => .error (.past .trailingText cs)

/-- The rest of an object after the key that makes it a number. The position of a fault in the
digits is one in the string that holds them. -/
def readKeyedNumber (cs : List Char) : Except Fault (Value × List Char) := do
  let cs ← readColon cs
  match skipSpace cs with
  | '"' :: cs =>
    let (digits, cs) ← readString [] cs
    match wholeNumeral digits with
    | .ok n =>
      let cs ← endObject cs
      return (.number (String.ofList n.text), cs)
    | .error f =>
      match f.place.lineColumn? digits with
      | some (line, column) => throw ⟨f.cause, .fixed line column⟩
      | none => throw f
  | cs => throw (typeFault "string containing a number" cs)

mutual

/-- A value, with room for so many more containers. -/
def readValue (steps room : Nat) (cs : List Char) : Except Fault (Value × List Char) :=
  match steps with
  | 0 => .error (.past .endInValue [])
  | steps + 1 =>
    match skipSpace cs with
    | [] => .error (.past .endInValue [])
    | 'n' :: cs => do return (.null, ← readWord ['u', 'l', 'l'] cs)
    | 't' :: cs => do return (.bool true, ← readWord ['r', 'u', 'e'] cs)
    | 'f' :: cs => do return (.bool false, ← readWord ['a', 'l', 's', 'e'] cs)
    | '"' :: cs => do
      let (s, cs) ← readString [] cs
      return (.string (String.ofList s), cs)
    | '[' :: cs =>
      match room with
      | 0 => .error (.past .tooDeep ('[' :: cs))
      | room + 1 =>
        match skipSpace cs with
        | [] => .error (.past .endInList [])
        | ']' :: cs => .ok (.array [], cs)
        | cs => do
          let (items, cs) ← readItems steps room [] cs
          return (.array items, cs)
    | '\x7b' :: cs =>
      match room with
      | 0 => .error (.past .tooDeep ('\x7b' :: cs))
      | room + 1 =>
        match skipSpace cs with
        | [] => .error (.past .endInObject [])
        | '\x7d' :: cs => .ok (.object [], cs)
        | '"' :: cs => do
          let (key, cs) ← readString [] cs
          if String.ofList key == numberKey then readKeyedNumber cs
          else
            let (members, cs) ← readMembers steps room [] (String.ofList key) cs
            return (.object members, cs)
        | cs => .error (.past .keyExpected cs)
    | c :: cs =>
      if c == '-' || c.isDigit then do
        let (n, cs) ← NumeralFault.lift (readNumeral (c :: cs))
        return (.number (String.ofList n.text), cs)
      else .error (.past .valueExpected (c :: cs))

/-- The items of an array from one that starts here; the earlier ones are in `acc`, last first. -/
def readItems (steps room : Nat) (acc : List Value) (cs : List Char) :
    Except Fault (List Value × List Char) :=
  match steps with
  | 0 => .error (.past .endInValue [])
  | steps + 1 =>
    match readValue steps room cs with
    | .error f => .error f
    | .ok (v, cs) =>
      match afterItem cs with
      | .error f => .error f
      | .ok (.done cs) => .ok ((v :: acc).reverse, cs)
      | .ok (.next cs) => readItems steps room (v :: acc) cs

def readMembers (steps room : Nat) (acc : List (String × Value)) (key : String)
    (cs : List Char) : Except Fault (List (String × Value) × List Char) :=
  match steps with
  | 0 => .error (.past .endInValue [])
  | steps + 1 =>
    match readColon cs with
    | .error f => .error f
    | .ok cs =>
      match readValue steps room cs with
      | .error f => .error f
      | .ok (v, cs) =>
        let acc := insertMember acc key v
        match afterMember cs with
        | .error f => .error f
        | .ok (.done cs) => .ok (acc, cs)
        | .ok (.next cs) =>
          match readString [] cs with
          | .error f => .error f
          | .ok (key, cs) => readMembers steps room acc (String.ofList key) cs

end

/-- The step count that suffices for a text: each step but the last reads a character, and a
container takes one step more than its bracket. -/
def stepsFor (cs : List Char) : Nat := 2 * cs.length + 2

def endText (cs : List Char) : Except Fault Unit :=
  match skipSpace cs with
  | [] => .ok ()
  | cs => .error (.past .trailingText cs)

def parse (cs : List Char) : Except Fault Value := do
  let (v, cs) ← readValue (stepsFor cs) maxDepth cs
  endText cs
  return v

def parseList (cs : List Char) : Except Fault (List Value) :=
  match skipSpace cs with
  | [] => .error (.past .endInValue [])
  | '[' :: rest =>
    match skipSpace rest with
    | [] => .error (.past .endInList [])
    | ']' :: rest => do
      endText rest
      return []
    | rest => do
      let (items, rest) ← readItems (stepsFor cs) (maxDepth - 1) [] rest
      endText rest
      return items
  | cs => .error (typeFault "a sequence" cs)

end LintRelay.Json

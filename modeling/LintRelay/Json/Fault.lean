import LintRelay.Text.Quoted
import LintRelay.Text.Utf8
/-! Why a JSON text is refused, where, and in which words. -/
namespace LintRelay.Json

inductive Found where
  | null
  | bool (b : Bool)
  | integer (text : String)
  | number
  | float (text : String)
  | string (s : String)
  | sequence
  | map
  deriving DecidableEq, Repr

def Found.message : Found → String
  | .null => "null"
  | .bool b => "boolean `" ++ (if b then "true" else "false") ++ "`"
  | .integer text => "integer `" ++ text ++ "`"
  | .number => "number"
  | .float text => "floating point `" ++ text ++ "`"
  | .string s => "string " ++ Text.quoted s
  | .sequence => "sequence"
  | .map => "map"

inductive Cause where
  | endInValue
  | endInList
  | endInObject
  | endInString
  | valueExpected
  | wordExpected
  | colonExpected
  | listSeparatorExpected
  | objectSeparatorExpected
  | keyExpected
  | trailingComma
  | trailingText
  | badNumber
  | numberOutOfRange
  | badEscape
  | loneSurrogate
  | brokenSurrogatePair
  | controlCharacter
  | tooDeep
  | wrongType (found : Found) (wanted : String)
  | wrongValue (found : Found) (wanted : String)
  | missingField (name : String)
  | duplicateField (name : String)
  | wrongLength (count : Nat) (wanted : String)
  | unknownVariant (given : String) (known : String)
  deriving DecidableEq, Repr

def Cause.message : Cause → String
  | .endInValue => "EOF while parsing a value"
  | .endInList => "EOF while parsing a list"
  | .endInObject => "EOF while parsing an object"
  | .endInString => "EOF while parsing a string"
  | .valueExpected => "expected value"
  | .wordExpected => "expected ident"
  | .colonExpected => "expected `:`"
  | .listSeparatorExpected => "expected `,` or `]`"
  | .objectSeparatorExpected => "expected `,` or `\x7d`"
  | .keyExpected => "key must be a string"
  | .trailingComma => "trailing comma"
  | .trailingText => "trailing characters"
  | .badNumber => "invalid number"
  | .numberOutOfRange => "number out of range"
  | .badEscape => "invalid escape"
  | .loneSurrogate => "lone leading surrogate in hex escape"
  | .brokenSurrogatePair => "unexpected end of hex escape"
  | .controlCharacter => "control character (\\u0000-\\u001F) found while parsing a string"
  | .tooDeep => "recursion limit exceeded"
  | .wrongType found wanted => "invalid type: " ++ found.message ++ ", expected " ++ wanted
  | .wrongValue found wanted => "invalid value: " ++ found.message ++ ", expected " ++ wanted
  | .missingField name => "missing field `" ++ name ++ "`"
  | .duplicateField name => "duplicate field `" ++ name ++ "`"
  | .wrongLength count wanted => "invalid length " ++ toString count ++ ", expected " ++ wanted
  | .unknownVariant given known => "unknown variant '" ++ given ++ "', expected one of: " ++ known

/-- Where a fault lies: nowhere in particular, at the place with so many bytes of the text after
it, or at a line and column of some other text. -/
inductive Place where
  | nowhere
  | leaving (bytes : Nat)
  | fixed (line column : Nat)
  deriving DecidableEq, Repr

structure Fault where
  cause : Cause
  place : Place
  deriving DecidableEq, Repr

/-- A fault right before the rest of the text. -/
def Fault.before (cause : Cause) (rest : List Char) : Fault := ⟨cause, .leaving (Utf8.size rest)⟩

/-- A fault at the first byte of the rest; at the end of the text if nothing is left. -/
def Fault.past (cause : Cause) (rest : List Char) : Fault :=
  ⟨cause, .leaving (Utf8.size rest - 1)⟩

def lineColumnFrom (offset line start pos : Nat) : List Char → Nat × Nat
  | [] => (line, offset - start)
  | c :: cs =>
    let pos := pos + c.utf8Size
    if offset < pos then (line, offset - start)
    else if c == '\n' then lineColumnFrom offset (line + 1) pos pos cs
    else lineColumnFrom offset line start pos cs

/-- Line and column of a byte offset: lines count from one, and the column is the number of bytes
since the line began. -/
def lineColumn (text : List Char) (offset : Nat) : Nat × Nat := lineColumnFrom offset 1 0 0 text

def Place.lineColumn? (text : List Char) : Place → Option (Nat × Nat)
  | .nowhere => none
  | .leaving bytes => some (lineColumn text (Utf8.size text - bytes))
  | .fixed line column => some (line, column)

def Fault.message (text : List Char) (f : Fault) : String :=
  match f.place.lineColumn? text with
  | none => f.cause.message
  | some (line, column) =>
    f.cause.message ++ " at line " ++ toString line ++ " column " ++ toString column

end LintRelay.Json

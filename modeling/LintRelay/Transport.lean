import LintRelay.Json.Record
import LintRelay.Text.Lowercase
/-! How the file reaches the analyzer: its path is always an argument, and its content may come on
the standard input as well. -/
namespace LintRelay

inductive Transport where
  | path
  | stdin
  deriving DecidableEq, Repr, Inhabited

namespace Transport

def name : Transport → String
  | .path => "path"
  | .stdin => "stdin"

/-- The transport with a name, in any case. -/
def ofName? (s : String) : Option Transport :=
  let cs := Text.lowercaseChars s.toList
  if cs == "path".toList then some .path
  else if cs == "stdin".toList then some .stdin
  else none

def read : Json.Read Transport := fun cs => do
  let (s, rest) ← Json.readText "a string" cs
  match ofName? s with
  | some t => return (t, rest)
  | none => throw (.loose (.unknownVariant s "path, stdin") rest)

def json (t : Transport) : Json.Value := .string t.name

end Transport
end LintRelay

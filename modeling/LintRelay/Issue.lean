import LintRelay.Json.Printer
/-! Issues. An issue is whatever JSON value the analyzer printed; only a few members are looked at,
each under two spellings, and the first spelling that is there counts. -/
namespace LintRelay

structure Issue where
  value : Json.Value
  deriving Inhabited, Repr

namespace Issue

/-- The member under the first of two keys that the issue has. -/
def member? (i : Issue) (key other : String) : Option Json.Value :=
  match i.value.get? key with
  | some v => some v
  | none => i.value.get? other

def text? (i : Issue) (key other : String) : Option String :=
  (i.member? key other).bind Json.Value.asString?

def count? (i : Issue) (key other : String) : Option Nat :=
  (i.member? key other).bind Json.Value.asWord?

def severity? (i : Issue) : Option String := i.text? "severity" "Severity"

def message? (i : Issue) : Option String := i.text? "message" "Message"

def line? (i : Issue) : Option Nat := i.count? "line" "Line"

def column? (i : Issue) : Option Nat := i.count? "column" "Column"

def endLine? (i : Issue) : Option Nat := i.count? "end_line" "EndLine"

def endColumn? (i : Issue) : Option Nat := i.count? "end_column" "EndColumn"

end Issue

def issuesJson (issues : List Issue) : Json.Value := .array (issues.map (·.value))

end LintRelay

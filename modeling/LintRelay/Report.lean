import LintRelay.Issue
/-! Issues for people to read: one line for each, with a dash for what is not known. -/
namespace LintRelay

def positionText (line column : Option Nat) : String :=
  let part (n : Option Nat) : String :=
    match n with
    | some n => toString n
    | none => "-"
  part line ++ ":" ++ part column

/-- Where an issue lies; the end is shown if anything of it is known. -/
def Issue.position (i : Issue) : String :=
  positionText i.line? i.column? ++
    (if i.endLine?.isSome || i.endColumn?.isSome then
      "-" ++ positionText i.endLine? i.endColumn?
    else "")

/-- One issue. Without a message, the whole value stands in its place. -/
def Issue.summary (i : Issue) : String :=
  i.position ++ " " ++ i.severity?.getD "-" ++ " " ++ i.message?.getD i.value.compactText

def report (target : String) (issues : List Issue) : String :=
  if issues.isEmpty then "✅ " ++ target ++ ": no issues"
  else
    issues.foldl (fun text i => text ++ "\n   " ++ i.summary)
      ("📄 " ++ target ++ ": " ++ toString issues.length ++ " issue(s)")

end LintRelay

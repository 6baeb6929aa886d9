import LintRelay.Failure
import LintRelay.Issue
import LintRelay.Json.Reader
import LintRelay.Text.Blank
/-! What an analyzer left behind when it ended, and what that says about the file. -/
namespace LintRelay

/-- The exit code, which is -1 for a process ended by a signal, and all output. -/
structure Outcome where
  exitCode : Int := 0
  stdout : Bytes := []
  stderr : Bytes := []
  deriving DecidableEq, Repr

/-- What an analyzer says about a file: its issues, or that it could not analyze it. -/
inductive Verdict where
  | issues (found : List Issue)
  | analysisFailed
  deriving Repr

namespace Verdict

def issues? : Verdict → Option (List Issue)
  | .issues found => some found
  | .analysisFailed => none

def json : Verdict → Json.Value
  | .issues found => .object [("status", .string "issues"), ("issues", issuesJson found)]
  | .analysisFailed => .object [("status", .string "analysis_failed")]

end Verdict

namespace Outcome

def success (o : Outcome) : Bool := o.exitCode == 0

def failureWord : List Char := ['e', 'r', 'r']

def snippetLength : Nat := 256

def snippet (output : List Char) : String := String.ofList (output.take snippetLength)

/-- Where the issues start in trimmed output: right away, or at the first bracket. -/
def payload? (skipPreamble : Bool) (trimmed : List Char) : Option (List Char) :=
  if skipPreamble then
    match trimmed.dropWhile (· != '[') with
    | [] => none
    | payload => some payload
  else some trimmed

/-- The output as text, if there is any to read: the process ended well and wrote UTF-8. -/
def output (o : Outcome) : Except Failure (List Char) :=
  if !o.success then .error (.exit o.exitCode o.stderr.display)
  else
    match Utf8.decode o.stdout with
    | .ok cs => .ok cs
    | .error d => .error (.output (.notUtf8 d) (snippet (Utf8.lossy o.stdout)))

/-- Reads the verdict: first the exit code counts, then the one word for failure, then the
array of issues. -/
def decode (skipPreamble : Bool) (o : Outcome) : Except Failure Verdict := do
  let text ← o.output
  let trimmed := Text.trim text
  if trimmed == failureWord then return .analysisFailed
  match payload? skipPreamble trimmed with
  | none => throw (.output .noArray (snippet text))
  | some payload =>
    match Json.parseList payload with
    | .ok values => return .issues (values.map Issue.mk)
    | .error f => throw (.output (.notIssues payload f) (snippet text))

/-- How many bytes in front of the issues are passed over, if any. -/
def preambleSize? (skipPreamble : Bool) (o : Outcome) : Option Nat :=
  match o.output with
  | .error _ => none
  | .ok text =>
    let trimmed := Text.trim text
    if !skipPreamble || trimmed == failureWord then none
    else
      match payload? skipPreamble trimmed with
      | none => none
      | some payload =>
        let n := Utf8.size trimmed - Utf8.size payload
        if n == 0 then none else some n

end Outcome
end LintRelay

import LintRelay.Failure
/-! Requests: one file to analyze, and an id that the analyzer gets along with it. -/
namespace LintRelay

structure Request where
  path : Path
  id : String
  deriving DecidableEq, Repr

/-- A request has a path and an id; the path is looked at first. -/
def Request.make (path : Path) (id : String) : Except Failure Request :=
  if path.isEmpty then .error (.request .emptyPath)
  else if id.isEmpty then .error (.request .emptyId)
  else .ok ⟨path, id⟩

/-- The id that a number gives: its decimal digits, after a minus sign if it is negative. -/
def Request.numberId (n : Int) : String := toString n

end LintRelay

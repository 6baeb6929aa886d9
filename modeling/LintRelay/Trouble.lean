import LintRelay.Failure
/-! Why a command of the command line fails: a failure, and what was being done. -/
namespace LintRelay

inductive Trouble where
  | unresolved (file : Path) (source : IoError)
  | fileNotFound (file : Path)
  | configFrom (path : Path) (failure : Failure)
  | configAbove (start : Path) (failure : Failure)
  | lint (file : Path) (failure : Failure)
  | issuesUnwritten (path : Path) (source : IoError)
  | configUnwritten (path : Path) (failure : Failure)
  | plain (failure : Failure)
  deriving DecidableEq, Repr

/-- A failure in words, followed by the refusal of the system behind it. -/
def Failure.chain (f : Failure) : List String :=
  f.message :: (f.source?.map IoError.message).toList

namespace Trouble

/-- What was being done, then what went wrong, each reason after what it explains. -/
def chain : Trouble → List String
  | .unresolved file source => ["Failed to resolve " ++ file.display, source.message]
  | .fileNotFound file => ["File not found: " ++ file.display]
  | .configFrom path failure => ("Failed to load config from " ++ path.display) :: failure.chain
  | .configAbove start failure =>
    ("Failed to load config found above " ++ start.display) :: failure.chain
  | .lint file failure => ("Failed to lint " ++ file.display) :: failure.chain
  | .issuesUnwritten path source =>
    ["Failed to write issues to " ++ path.display, source.message]
  | .configUnwritten path failure =>
    ("Failed to write config to " ++ path.display) :: failure.chain
  | .plain failure => failure.chain

end Trouble
end LintRelay

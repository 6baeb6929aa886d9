import LintRelay.Command
/-! What is worth a line in the log. -/
namespace LintRelay

inductive Level where
  | trace
  | debug
  | info
  | warn
  deriving DecidableEq, Repr

def Level.name : Level → String
  | .trace => "TRACE"
  | .debug => "DEBUG"
  | .info => "INFO"
  | .warn => "WARN"

inductive Event where
  | hasExtension (path : Path) (extension : String)
  | loadedConfig (analyzers : Nat) (path : Path)
  | usingConfig (path : Path)
  | noConfig (start : Path)
  | routing (path : Path) (analyzer : String)
  | streaming (size : Nat) (path : Path)
  | invoking (analyzer runner line : String)
  | spawning (line : String)
  | timedOut (program : String) (limit : Duration)
  | inputUnread (size : Nat)
  | exited (program : String) (code : Int) (stdoutSize stderrSize : Nat)
  | skippedPreamble (size : Nat)
  | foundIssues (analyzer : String) (issues : Nat) (path : Path)
  | couldNotAnalyze (analyzer : String) (path : Path)
  | linting (path : Path) (id : String)
  | wroteIssues (issues : Nat) (path : Path)
  | wroteConfig (path : Path)
  deriving DecidableEq, Repr

namespace Event

def level : Event → Level
  | .hasExtension .. => .trace
  | .timedOut .. => .warn
  | .couldNotAnalyze .. => .warn
  | .exited .. => .info
  | .wroteIssues .. => .info
  | .wroteConfig .. => .info
  | _ => .debug

def message : Event → String
  | .hasExtension path extension => "Extension of " ++ Text.quotedBytes path.bytes ++ ": " ++ extension
  | .loadedConfig analyzers path =>
    "Loaded " ++ toString analyzers ++ " analyzer(s) from " ++ path.display
  | .usingConfig path => "Using config from " ++ path.display
  | .noConfig start => "No config file found above " ++ start.display ++ ", using defaults"
  | .routing path analyzer => "Routing " ++ path.display ++ " to analyzer '" ++ analyzer ++ "'"
  | .streaming size path =>
    "Streaming " ++ toString size ++ " bytes of " ++ path.display ++ " over stdin"
  | .invoking analyzer runner line =>
    "Invoking analyzer '" ++ analyzer ++ "' via " ++ runner ++ " runner: " ++ line
  | .spawning line => "Spawning analyzer: " ++ line
  | .timedOut program limit => "Analyzer '" ++ program ++ "' timed out after " ++ limit.text
  | .inputUnread size => "Analyzer closed stdin before reading " ++ toString size ++ " bytes"
  | .exited program code stdoutSize stderrSize =>
    "Analyzer '" ++ program ++ "' exited with " ++ toString code ++ " (stdout="
      ++ toString stdoutSize ++ "B, stderr=" ++ toString stderrSize ++ "B)"
  | .skippedPreamble size => "Skipping " ++ toString size ++ " bytes of analyzer preamble"
  | .foundIssues analyzer issues path =>
    "Analyzer '" ++ analyzer ++ "' reported " ++ toString issues ++ " issue(s) for " ++ path.display
  | .couldNotAnalyze analyzer path =>
    "Analyzer '" ++ analyzer ++ "' could not analyze " ++ path.display
  | .linting path id => "Linting " ++ path.display ++ " (correlation id " ++ id ++ ")"
  | .wroteIssues issues path => "Wrote " ++ toString issues ++ " issue(s) to " ++ path.display
  | .wroteConfig path => "Wrote default config to " ++ path.display

def line (e : Event) : String := e.level.name ++ " " ++ e.message

end Event
end LintRelay

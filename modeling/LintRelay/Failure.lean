import LintRelay.Duration
import LintRelay.IoError
import LintRelay.Json.Fault
import LintRelay.Path
/-! Everything that can go wrong between a request and its issues, by cause, with the wording of
each cause in one place. -/
namespace LintRelay

inductive RequestDefect where
  | emptyPath
  | emptyId
  | stated (text : String)
  deriving DecidableEq, Repr

def RequestDefect.message : RequestDefect → String
  | .emptyPath => "target path is empty"
  | .emptyId => "correlation id is empty"
  | .stated text => text

inductive ConfigDefect where
  | noAnalyzers
  | emptyName
  | emptyCommand (analyzer : String)
  | noExtensions (analyzer : String)
  | zeroTimeout (analyzer : String)
  | emptyExtension (analyzer : String)
  | claimedTwice (extension first second : String)
  | unreadable (path : Path) (text : List Char) (fault : Json.Fault)
  | unwritable
  | stated (text : String)
  deriving DecidableEq, Repr

/-- A path that is no text cannot be written as JSON. -/
def pathNotText : String := "path contains invalid UTF-8 characters"

def ConfigDefect.message : ConfigDefect → String
  | .noAnalyzers => "no analyzers configured"
  | .emptyName => "analyzer name is empty"
  | .emptyCommand name => "analyzer '" ++ name ++ "' has an empty command"
  | .noExtensions name => "analyzer '" ++ name ++ "' claims no file extensions"
  | .zeroTimeout name => "analyzer '" ++ name ++ "' has a zero timeout"
  | .emptyExtension name => "analyzer '" ++ name ++ "' has an empty extension"
  | .claimedTwice extension first second =>
    "extension '." ++ extension ++ "' is claimed by both '" ++ first ++ "' and '" ++ second ++ "'"
  | .unreadable path text fault =>
    "Failed to parse " ++ path.display ++ ": " ++ fault.message text
  | .unwritable => "Failed to serialize config: " ++ pathNotText
  | .stated text => text

inductive OutputDefect where
  | notUtf8 (defect : Utf8.Defect)
  | noArray
  | notIssues (payload : List Char) (fault : Json.Fault)
  | stated (text : String)
  deriving DecidableEq, Repr

def OutputDefect.message : OutputDefect → String
  | .notUtf8 defect => "stdout is not valid UTF-8: " ++ defect.message
  | .noArray => "no JSON array found in stdout"
  | .notIssues payload fault =>
    "stdout is not a JSON array of issues: " ++ fault.message payload
  | .stated text => text

inductive Failure where
  | launch (program : String) (source : IoError)
  | exit (code : Int) (stderr : String)
  | output (defect : OutputDefect) (snippet : String)
  | timeout (program : String) (limit : Duration)
  | request (defect : RequestDefect)
  | unsupported (path : Path)
  | config (defect : ConfigDefect)
  | io (source : IoError)
  deriving DecidableEq, Repr

namespace Failure

def message : Failure → String
  | .launch program source =>
    "Failed to launch analyzer '" ++ program ++ "': " ++ source.message
  | .exit code stderr => "Analyzer exited with status " ++ toString code ++ ": " ++ stderr
  | .output defect snippet =>
    "Analyzer protocol violation: " ++ defect.message ++ " (stdout: " ++ Text.quoted snippet ++ ")"
  | .timeout program limit => "Analyzer '" ++ program ++ "' timed out after " ++ limit.text
  | .request defect => "Invalid request: " ++ defect.message
  | .unsupported path => "No analyzer configured for " ++ path.display
  | .config defect => "Configuration error: " ++ defect.message
  | .io source => "IO error: " ++ source.message

def source? : Failure → Option IoError
  | .launch _ source => some source
  | .io source => some source
  | _ => none

end Failure
end LintRelay

import LintRelay.Path
import LintRelay.Text.Blank
import LintRelay.Text.Lowercase
/-! File extensions, by which files are routed. -/
namespace LintRelay.Extension

/-- The form in which extensions are compared: trimmed, without the dots in front and in lower
case. -/
def normalize (extension : String) : String :=
  String.ofList
    (Text.lowercaseChars ((Text.trim extension.toList).dropWhile fun c => c == '.'))

def written? (p : Path) : Option String := do (← p.extension?).text?

def ofPath? (p : Path) : Option String := (written? p).map normalize

end LintRelay.Extension

import LintRelay.Tool.Basename
import LintRelay.Tool.Cat
import LintRelay.Tool.Echo
import LintRelay.Tool.Head
import LintRelay.Tool.Printf
import LintRelay.Tool.Sleep
import LintRelay.Tool.Touch
import LintRelay.Tool.Tr
import LintRelay.Tool.Wc
/-! The tools by their names. -/
namespace LintRelay.Tool

def table : List (String × (List Octets → Use Unit)) :=
  [("basename", Basename.run), ("cat", Cat.run), ("echo", Echo.run), ("false", fun _ => Use.exit 1),
    ("head", Head.run), ("printf", Printf.run), ("sleep", Sleep.run), ("touch", Touch.run),
    ("tr", Tr.run), ("true", fun _ => Use.exit 0), ("wc", Wc.run)]

end LintRelay.Tool

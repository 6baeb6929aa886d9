import LintRelay.Process.Octets
/-! The names of signals, and how they are described to people. -/
namespace LintRelay.Process.Signal

/-- The names of the signals in their order. Zero is no signal, but the end of a process. -/
def names : List String :=
  ["EXIT", "HUP", "INT", "QUIT", "ILL", "TRAP", "ABRT", "BUS", "FPE", "KILL", "USR1", "SEGV", "USR2",
    "PIPE", "ALRM", "TERM", "16", "CHLD", "CONT", "STOP", "TSTP", "TTIN", "TTOU", "URG", "XCPU",
    "XFSZ", "VTALRM", "PROF", "WINCH", "IO", "PWR", "SYS", "32", "33", "RTMIN"] ++
    (List.range 15).map (fun n => "RTMIN+" ++ toString (n + 1)) ++
    (List.range 14).map (fun n => "RTMAX-" ++ toString (14 - n)) ++ ["RTMAX"]

def count : Nat := 65

def name (n : Nat) : String := names.getD n ""

def usualDescriptions : List String :=
  ["Unknown signal 0", "Hangup", "Interrupt", "Quit", "Illegal instruction", "Trace/breakpoint trap",
    "Aborted", "Bus error", "Floating point exception", "Killed", "User defined signal 1",
    "Segmentation fault", "User defined signal 2", "Broken pipe", "Alarm clock", "Terminated",
    "Stack fault", "Child exited", "Continued", "Stopped (signal)", "Stopped", "Stopped (tty input)",
    "Stopped (tty output)", "Urgent I/O condition", "CPU time limit exceeded",
    "File size limit exceeded", "Virtual timer expired", "Profiling timer expired", "Window changed",
    "I/O possible", "Power failure", "Bad system call", "Unknown signal 32", "Unknown signal 33"]

def description (n : Nat) : String :=
  usualDescriptions.getD n ("Real-time signal " ++ toString (n - 34))

/-- The signal that a number or a name stands for, from `least` on for names. -/
def ofText? (text : Octets) (least : Nat) : Option Nat :=
  if !text.isEmpty && text.all Char.isDigit then
    let n := text.foldl (fun n c => 10 * n + (c.toNat - 48)) 0
    if n < count then some n else none
  else
    let wanted := text.map Char.toUpper
    (List.range count).find? fun n => least ≤ n && (name n).toList == wanted

end LintRelay.Process.Signal

import LintRelay.Shell.Session
/-! How the options of commands that the shell carries out itself are read. -/
namespace LintRelay.Shell.Builtin

/-- Whether a letter is an option, and whether an argument belongs to it; in the description a colon
follows such a letter. -/
def takesArgument? (letter : Char) : List Char → Option Bool
  | [] => none
  | c :: ':' :: rest => if c == letter then some true else takesArgument? letter rest
  | c :: rest => if c == letter then some false else takesArgument? letter rest

/-- The options in one word, and what is left of the other arguments. -/
def lettersOf (allowed : List Char) : Octets → List Octets → Sh (List (Char × Octets) × List Octets)
  | [], args => return ([], args)
  | c :: cs, args => do
    match takesArgument? c allowed with
    | none => Sh.fail ("Illegal option -".toList ++ [c])
    | some false =>
      let (more, args) ← lettersOf allowed cs args
      return ((c, []) :: more, args)
    | some true =>
      if !cs.isEmpty then return ([(c, cs)], args)
      match args with
      | a :: args => return ([(c, a)], args)
      | [] => Sh.fail ("No arg for -".toList ++ c :: " option".toList)

def options (allowed : List Char) : (steps : Nat) → List Octets →
    Sh (List (Char × Octets) × List Octets)
  | 0, args => return ([], args)
  | steps + 1, args => do
    match args with
    | ['-', '-'] :: rest => return ([], rest)
    | ('-' :: c :: cs) :: rest =>
      let (found, rest) ← lettersOf allowed (c :: cs) rest
      let (more, rest) ← options allowed steps rest
      return (found ++ more, rest)
    | args => return ([], args)

def parted (allowed : String) (args : List Octets) : Sh (List (Char × Octets) × List Octets) :=
  options allowed.toList (args.length + 1) args

def operands (args : List Octets) : Sh (List Octets) := do
  return (← parted "" args).2

end LintRelay.Shell.Builtin

import LintRelay.Process.Octets
/-! Shell scripts as data. A word is a sequence of signs: characters, some of them quoted, and marks
for where something is to be put in. What belongs to such a place follows it, up to its own closing
sign. -/
namespace LintRelay.Shell

inductive Action where
  | value
  /-- Another word stands in if there is no value. -/
  | fallback
  /-- Another word stands in if there is a value. -/
  | replacement
  /-- A word is the message with which the shell ends if there is no value. -/
  | demand
  /-- A word becomes the value if there is none. -/
  | assign
  | trimEnd (longest : Bool)
  | trimStart (longest : Bool)
  | length
  /-- Nothing that the shell knows. -/
  | unknown
  deriving DecidableEq, Repr

inductive Opening where
  | read
  | write
  /-- Writes even to a file that is protected. -/
  | overwrite
  | append
  | both
  deriving DecidableEq, Repr

mutual

inductive Sign where
  | char (c : Char)
  /-- A character that stands for itself alone. -/
  | quoted (c : Char)
  /-- A quotation mark. -/
  | mark
  /-- A parameter; with `orEmpty` an empty value counts as none. Unless only the value is taken,
  a word follows up to `close`. -/
  | param (name : List Char) (action : Action) (orEmpty : Bool)
  | close
  /-- What a command prints. -/
  | command (body : Option Command)
  /-- The value of an expression, which follows up to `closeArith`. -/
  | arith
  | closeArith

inductive Redirect where
  | file (fd : Nat) (how : Opening) (target : List Sign)
  /-- Another descriptor, or none. -/
  | copy (fd : Nat) (source : Option Nat)
  /-- The descriptor that a word names. -/
  | copyNamed (fd : Nat) (source : List Sign)
  /-- A text from the script, by its number: the text stands after the line that asks for it. -/
  | here (fd : Nat) (document : Nat)

inductive Command where
  | simple (line : Nat) (assignments words : List (List Sign)) (redirects : List Redirect)
  | pipeline (background : Bool) (parts : List Command)
  | redirected (line : Nat) (body : Command) (redirects : List Redirect)
  | background (line : Nat) (body : Command) (redirects : List Redirect)
  | subshell (line : Nat) (body : Command) (redirects : List Redirect)
  | both (first second : Command)
  | either (first second : Command)
  | sequence (first second : Command)
  | branch (test yes : Command) (no : Option Command)
  /-- Repeats the body as long as the test ends with this success. -/
  | loop (success : Bool) (test body : Command)
  /-- Runs the body once for each value. -/
  | each (line : Nat) (name : List Char) (words : List (List Sign)) (body : Command)
  /-- Runs the first arm with a pattern that the subject matches. -/
  | choose (line : Nat) (subject : List Sign) (arms : List (List (List Sign) × Option Command))
  /-- Gives a command a name, under which it runs with arguments of its own. -/
  | define (line : Nat) (name : List Char) (body : Command)
  | negated (body : Command)

end

abbrev Word := List Sign

/-- A text from the script, and whether something is put into it. -/
structure Document where
  text : Word
  expand : Bool

instance : Inhabited Document := ⟨⟨[], false⟩⟩

def Sign.plain? : Sign → Option Char
  | .char c => some c
  | _ => none

/-- The text of a word in which nothing is quoted and nothing put in. -/
def Word.plain? (w : Word) : Option Octets := w.mapM Sign.plain?

def Word.unquoted (w : Word) : Octets :=
  w.filterMap fun s =>
    match s with
    | .char c => some c
    | .quoted c => some c
    | _ => none

def isNameStart (c : Char) : Bool := c.isAlpha || c == '_'

def isNamePart (c : Char) : Bool := c.isAlphanum || c == '_'

def isName (text : Octets) : Bool :=
  match text with
  | [] => false
  | c :: cs => isNameStart c && cs.all isNamePart

def isSpecial (c : Char) : Bool := c.isDigit || "$?#!-*@".toList.contains c

/-- What stands before an equals sign, if it is a name. -/
def Word.assigned? (w : Word) : Option Octets :=
  let name := w.takeWhile fun s => (Sign.plain? s).any isNamePart
  match Word.plain? name, w.drop name.length with
  | some n, .char '=' :: _ => if isName n then some n else none
  | _, _ => none

end LintRelay.Shell

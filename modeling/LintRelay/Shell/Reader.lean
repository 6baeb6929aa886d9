import LintRelay.Shell.Syntax
/-! How a script is read: character by character, with what an alias stands for put in between, and
token by token, with one token of looking ahead. -/
namespace LintRelay.Shell

structure Source where
  text : Octets
  /-- The aliases that the text stands for; they are not put in once more inside it. -/
  aliases : List Octets := []
  /-- Whether the text of an alias ends in a blank, so that the next word may be an alias too. -/
  endsBlank : Bool := false

inductive Keyword where
  | not
  | case
  | do
  | done
  | elif
  | else
  | esac
  | fi
  | for
  | if
  | in
  | then
  | until
  | while
  | open
  | close
  deriving DecidableEq, Repr

inductive Token where
  | eof
  | newline
  | semicolon
  | background
  | and
  | or
  | pipe
  | openParen
  | closeParen
  | endCase
  | redirect
  | word
  | keyword (k : Keyword)
  deriving DecidableEq, Repr

def Keyword.text : Keyword → String
  | .not => "!"
  | .case => "case"
  | .do => "do"
  | .done => "done"
  | .elif => "elif"
  | .else => "else"
  | .esac => "esac"
  | .fi => "fi"
  | .for => "for"
  | .if => "if"
  | .in => "in"
  | .then => "then"
  | .until => "until"
  | .while => "while"
  | .open => "\x7b"
  | .close => "\x7d"

def Keyword.all : List Keyword :=
  [.not, .case, .do, .done, .elif, .else, .esac, .fi, .for, .if, .in, .then, .until, .while, .open,
    .close]

def Keyword.ofText? (text : Octets) : Option Keyword :=
  Keyword.all.find? fun k => k.text.toList == text

def Token.name : Token → String
  | .eof => "end of file"
  | .newline => "newline"
  | .semicolon => "\";\""
  | .background => "\"&\""
  | .and => "\"&&\""
  | .or => "\"||\""
  | .pipe => "\"|\""
  | .openParen => "\"(\""
  | .closeParen => "\")\""
  | .endCase => "\";;\""
  | .redirect => "redirection"
  | .word => "word"
  | .keyword k => "\"" ++ k.text ++ "\""

def Token.endsList : Token → Bool
  | .eof | .closeParen | .endCase => true
  | .keyword k => [.do, .done, .elif, .else, .esac, .fi, .then, .close].contains k
  | _ => false

/-- What a word is looked up as, and whether newlines before it are skipped. -/
structure Look where
  newlines : Bool := false
  keywords : Bool := false
  aliases : Bool := false
  /-- Whether the word is the end of a document, in which nothing is put in. -/
  endMark : Bool := false

/-- A redirection whose target is not read yet. -/
inductive Proto where
  | file (fd : Nat) (how : Opening)
  | copy (fd : Nat)
  | here (fd : Nat) (stripTabs : Bool)

/-- A document that is read at the end of the line. -/
structure Awaited where
  document : Nat
  mark : Octets
  stripTabs : Bool
  expand : Bool

inductive Fault where
  /-- The text goes on, but is not there yet. -/
  | incomplete
  | wrong (line : Nat) (message : String)

structure Reader where
  sources : List Source
  /-- What was read too far, next first; nothing at all stands for the end. -/
  back : List (Option Char) := []
  /-- Aliases whose text has just come to its end. They are not put in once more until something
  else is read. -/
  spent : List Octets := []
  line : Nat := 1
  /-- Whether the end of the text is the end of the script. -/
  final : Bool := true
  /-- Whether the last token is read once more. -/
  again : Bool := false
  last : Token := .newline
  /-- The last word, and whether it has quotes. -/
  word : Word := []
  quoted : Bool := false
  look : Look := {}
  proto : Proto := .copy 0
  awaited : List Awaited := []
  documents : Array Document := #[]
  aliases : List (Octets × Octets) := []
  /-- Names that no function can have. -/
  reserved : List String := []

abbrev Read (α : Type) := StateT Reader (Except Fault) α

namespace Read

def fail {α : Type} (message : String) : Read α := do
  throw (.wrong (← get).line message)

def unexpected {α : Type} (wanted : Option Token) : Read α := do
  let s ← get
  match wanted with
  | some t => fail (s.last.name ++ " unexpected (expecting " ++ t.name ++ ")")
  | none => fail (s.last.name ++ " unexpected")

def take (s : Reader) : List Source → Except Fault (Option Char × Reader)
  | [] => if s.final then .ok (none, { s with sources := [] }) else .error .incomplete
  | src :: more =>
    match src.text with
    | c :: cs => .ok (some c, { s with sources := { src with text := cs } :: more })
    | [] =>
      take { s with
        spent := src.aliases ++ s.spent
        look := { s.look with aliases := s.look.aliases || src.endsBlank } } more

def char : Read (Option Char) := fun s =>
  let s := { s with spent := [] }
  match s.back with
  | c :: back => .ok (c, { s with back })
  | [] => take s s.sources

def unread (c : Option Char) : Read Unit := modify fun s => { s with back := c :: s.back }

def nextLine : Read Unit := modify fun s => { s with line := s.line + 1 }

/-- The next character, with lines joined that a backslash joins. -/
def joined : (steps : Nat) → Read (Option Char)
  | 0 => char
  | steps + 1 => do
    match ← char with
    | some '\\' =>
      match ← char with
      | some '\n' =>
        nextLine
        joined steps
      | c =>
        unread c
        return some '\\'
    | c => return c

def isInUse (s : Reader) (name : Octets) : Bool :=
  s.spent.contains name || s.sources.any fun src => src.aliases.contains name

def insertAlias (name text : Octets) : Read Unit := modify fun s =>
  let endsBlank := text.getLast?.any fun c => c == ' ' || c == '\t'
  -- What was read too far comes after the text.
  let rest : List Source :=
    if s.back.isEmpty then s.sources else { text := s.back.filterMap id } :: s.sources
  { s with
    sources := { text, aliases := name :: s.spent, endsBlank } :: rest
    back := []
    spent := [] }

def skipLine : (steps : Nat) → Read Unit
  | 0 => return
  | steps + 1 => do
    match ← char with
    | some '\n' => unread (some '\n')
    | none => unread none
    | some _ => skipLine steps

/-- Reads another text on its own, and goes on after that where it was. -/
def aside {α : Type} (text : Octets) (body : Read α) : Read α := do
  let s ← get
  set { s with sources := [{ text }], back := [], spent := [], line := 1, final := true }
  let a ← body
  modify fun t =>
    { t with sources := s.sources, back := s.back, spent := s.spent, line := s.line,
             final := s.final, again := false }
  return a

end Read
end LintRelay.Shell

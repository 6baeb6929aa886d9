import LintRelay.Shell.Lexer
/-! The grammar of scripts. A script is read one complete line at a time, because what a line does
can change how the next one is read. -/
namespace LintRelay.Shell
namespace Parser

/-- The parts of the grammar. All of them are read by one function, so that each may occur inside
the others. -/
inductive Part where
  /-- Commands up to the end of a line, or with `nested` up to what encloses them; `empty` tells
  whether there may be none. -/
  | list (nested empty : Bool)
  /-- Commands inside a word, up to a parenthesis if one closes them. -/
  | inside (closed : Bool)
  | andOr
  | pipeline
  | command

/-- Reads a part of the grammar; nothing, if it is empty. -/
abbrev Grammar := Part → Read (Option Command)

def look (newlines keywords aliases : Bool) : Read Unit :=
  modify fun s => { s with look := { newlines, keywords, aliases } }

def again : Read Unit := modify fun s => { s with again := true }

def needed (body : Read (Option Command)) : Read Command := do
  match ← body with
  | some c => return c
  | none => Read.unexpected none

/-- Commands that something encloses. If there are none the script is at its end, and what should
follow them is missing too. -/
def body (g : Grammar) : Read Command := do
  return (← g (.list true false)).getD (.simple 0 [] [] [])

def readToken (g : Grammar) : Read Token := do
  let asked := (← get).look
  Lexer.token (fun closed => g (.inside closed)) asked Lexer.manySteps

def documents (g : Grammar) : Read Unit := Lexer.documents fun closed => g (.inside closed)

def expect (g : Grammar) (t : Token) : Read Unit := do
  if (← readToken g) != t then Read.unexpected (some t)

def redirectTarget (g : Grammar) : Read Redirect := do
  let proto := (← get).proto
  if proto matches .here .. then modify fun s => { s with look := { s.look with endMark := true } }
  if (← readToken g) != .word then Read.unexpected none
  let s ← get
  match proto with
  | .file fd how => return .file fd how s.word
  | .copy fd =>
    match Word.plain? s.word with
    | some ['-'] => return .copy fd none
    | some [c] =>
      if c.isDigit then return .copy fd (some (c.toNat - 48)) else return .copyNamed fd s.word
    | _ => return .copyNamed fd s.word
  | .here fd stripTabs =>
    let document := s.documents.size
    let awaited : Awaited := ⟨document, Word.unquoted s.word, stripTabs, !s.quoted⟩
    set { s with documents := s.documents.push default, awaited := s.awaited ++ [awaited] }
    return .here fd document

def redirects (g : Grammar) : (steps : Nat) → List Redirect → Read (List Redirect)
  | 0, seen => return seen.reverse
  | steps + 1, seen => do
    if (← readToken g) == .redirect then redirects g steps ((← redirectTarget g) :: seen)
    else
      again
      return seen.reverse

structure Simple where
  assignments : List Word := []
  words : List Word := []
  redirects : List Redirect := []

/-- A function, after its name and an opening parenthesis. -/
def define (g : Grammar) (name : Word) : Read Command := do
  expect g .closeParen
  let s ← get
  match Word.plain? name with
  | none => Read.fail "Bad function name"
  | some text =>
    if !isName text || s.reserved.any fun r => r.toList == text then
      Read.fail "Bad function name"
    look true true true
    let line := (← get).line
    return .define line text (← needed (g .command))

/-- A command of words. Assignments come first, and so do aliases. -/
def simple (g : Grammar) (line : Nat) : (steps : Nat) → (first : Bool) → Simple → Read Command
  | 0, _, _ => Read.unexpected none
  | steps + 1, first, c => do
    look false false first
    match ← readToken g with
    | .word =>
      let w := (← get).word
      if first && (Word.assigned? w).isSome then
        simple g line steps true { c with assignments := w :: c.assignments }
      else simple g line steps false { c with words := w :: c.words }
    | .redirect =>
      let r ← redirectTarget g
      simple g line steps first { c with redirects := r :: c.redirects }
    | .openParen =>
      match c.words, c.assignments, c.redirects with
      | [name], [], [] => define g name
      | _, _, _ =>
        again
        return finish c
    | _ =>
      again
      return finish c
where
  finish (c : Simple) : Command :=
    .simple line c.assignments.reverse c.words.reverse c.redirects.reverse

def branch (g : Grammar) : (steps : Nat) → Read Command
  | 0 => Read.unexpected none
  | steps + 1 => do
    let test ← body g
    expect g (.keyword .then)
    let yes ← body g
    match ← readToken g with
    | .keyword .elif => return .branch test yes (some (← branch g steps))
    | .keyword .else => return .branch test yes (← g (.list true false))
    | _ =>
      again
      return .branch test yes none

def loopWords (g : Grammar) : (steps : Nat) → List Word → Read (List Word)
  | 0, seen => return seen.reverse
  | steps + 1, seen => do
    match ← readToken g with
    | .word =>
      let w := (← get).word
      loopWords g steps (w :: seen)
    | .newline | .semicolon => return seen.reverse
    | _ => Read.unexpected none

def allArguments : Word := [.mark, .param ['@'] .value false, .mark]

def each (g : Grammar) (line : Nat) : Read Command := do
  let t ← readToken g
  let s ← get
  let name := (Word.plain? s.word).getD []
  if t != .word || s.quoted || !isName name then Read.fail "Bad for loop variable"
  look true true true
  let words ←
    if (← readToken g) == .keyword .in then loopWords g Lexer.manySteps []
    else
      if (← get).last != .semicolon then again
      pure [allArguments]
  look true true true
  expect g (.keyword .do)
  return .each line name words (← body g)

/-- The patterns of an arm. What stands where a pattern should is not looked at. -/
def patterns (g : Grammar) : (steps : Nat) → List Word → Read (List Word)
  | 0, seen => return seen.reverse
  | steps + 1, seen => do
    let seen := (← get).word :: seen
    if (← readToken g) == .pipe then
      let _ ← readToken g
      patterns g steps seen
    else return seen.reverse

def arms (g : Grammar) : (steps : Nat) → List (List Word × Option Command) →
    Read (List (List Word × Option Command))
  | 0, seen => return seen.reverse
  | steps + 1, seen => do
    look true true false
    match ← readToken g with
    | .keyword .esac => return seen.reverse
    | t =>
      if t == .openParen then let _ ← readToken g
      let ps ← patterns g Lexer.manySteps []
      if (← get).last != .closeParen then Read.unexpected (some .closeParen)
      let body ← g (.list true true)
      let seen := (ps, body) :: seen
      look true true false
      match ← readToken g with
      | .keyword .esac => return seen.reverse
      | .endCase => arms g steps seen
      | _ => Read.unexpected (some .endCase)

def choose (g : Grammar) (line : Nat) : Read Command := do
  if (← readToken g) != .word then Read.unexpected (some .word)
  let subject := (← get).word
  look true true true
  expect g (.keyword .in)
  return .choose line subject (← arms g Lexer.manySteps [])

def withRedirects (g : Grammar) (line : Nat) (c : Command) : Read Command := do
  look false true true
  let rs ← redirects g Lexer.manySteps []
  if rs.isEmpty then return c
  match c with
  | .subshell line body _ => return .subshell line body rs
  | c => return .redirected line c rs

def closed (g : Grammar) (line : Nat) (body : Command) (t : Token) : Read Command := do
  expect g t
  withRedirects g line body

def command (g : Grammar) : Read Command := do
  let line := (← get).line
  match ← readToken g with
  | .keyword .if =>
    closed g line (← branch g Lexer.manySteps) (.keyword .fi)
  | .keyword .while => closed g line (← loop true) (.keyword .done)
  | .keyword .until => closed g line (← loop false) (.keyword .done)
  | .keyword .for => closed g line (← each g line) (.keyword .done)
  | .keyword .case => withRedirects g line (← choose g line)
  | .openParen =>
    closed g line (.subshell line (← body g) []) .closeParen
  | .keyword .open =>
    closed g line (← body g) (.keyword .close)
  | .word | .redirect =>
    again
    simple g (← get).line Lexer.manySteps true {}
  | _ => Read.unexpected none
where
  loop (success : Bool) : Read Command := do
    let test ← body g
    expect g (.keyword .do)
    return .loop success test (← body g)

def pipeParts (g : Grammar) : (steps : Nat) → List Command → Read (List Command)
  | 0, seen => return seen.reverse
  | steps + 1, seen => do
    if (← readToken g) == .pipe then
      look true true true
      pipeParts g steps ((← needed (g .command)) :: seen)
    else
      again
      return seen.reverse

def pipeline (g : Grammar) : Read Command := do
  let negated := (← readToken g) == .keyword .not
  if negated then look false true true else again
  let first ← needed (g .command)
  let parts ← pipeParts g Lexer.manySteps [first]
  let c : Command :=
    match parts with
    | [c] => c
    | parts => .pipeline false parts
  return if negated then .negated c else c

def andOr (g : Grammar) : (steps : Nat) → Command → Read Command
  | 0, c => return c
  | steps + 1, c => do
    match ← readToken g with
    | .and =>
      look true true true
      andOr g steps (.both c (← needed (g .pipeline)))
    | .or =>
      look true true true
      andOr g steps (.either c (← needed (g .pipeline)))
    | _ =>
      again
      return c

def inBackground : Command → Command
  | .pipeline _ parts => .pipeline true parts
  | .redirected line body rs => .background line body rs
  | c => .background 0 c []

def join (before : Option Command) (c : Command) : Command :=
  match before with
  | none => c
  | some b => .sequence b c

def atEnd (g : Grammar) (c : Option Command) : Read (Option Command) := do
  documents g
  modify fun s => { s with again := true, last := .eof }
  return c

/-- A list of commands. The flag tells whether it may end here. -/
def list (g : Grammar) (nested : Bool) : (steps : Nat) → (mayEnd : Bool) → Option Command → Read (Option Command)
  | 0, _, seen => return seen
  | steps + 1, mayEnd, seen => do
    look nested true true
    let t ← readToken g
    if t == .newline then
      documents g
      return seen
    if t == .eof then atEnd g seen
    else
      again
      if nested && mayEnd && t.endsList then return seen
      let c ← needed (g .andOr)
      let t ← readToken g
      let c := if t == .background then inBackground c else c
      let seen := some (join seen c)
      match t with
      | .eof => atEnd g seen
      | .newline =>
        again
        list g nested steps true seen
      | .background | .semicolon => list g nested steps true seen
      | _ =>
        if !nested then Read.unexpected none
        again
        return seen

/-- Commands inside a word. The documents that they ask for are their own. -/
def inside (g : Grammar) (isClosed : Bool) : Read (Option Command) := do
  let saved := (← get).awaited
  modify fun s => { s with awaited := [] }
  let body ← g (.list true true)
  if isClosed then expect g .closeParen
  modify fun s => { s with awaited := saved }
  return body

/-- Reads a part of the grammar; `depth` bounds how deeply parts are nested. -/
def part : (depth : Nat) → Grammar
  | 0, _ => Read.fail "nested too deeply"
  | depth + 1, p => do
    let g := part depth
    match p with
    | .list nested empty => list g nested Lexer.manySteps empty none
    | .inside isClosed => inside g isClosed
    | .andOr => return some (← andOr g Lexer.manySteps (← needed (g .pipeline)))
    | .pipeline => return some (← pipeline g)
    | .command => return some (← command g)

def maxDepth : Nat := 1000000

def line : Read (Option Command) := do
  modify fun s => { s with again := false, look := {}, awaited := [] }
  part maxDepth (.list false false)

def isAtEnd (s : Reader) : Bool := s.again && s.last == .eof

/-- A text as the inside of double quotes. -/
def quotedText : Read Word := do
  let level : Level := { style := .double, double := true }
  let mark : EndMark := ⟨none, false⟩
  let c ← Lexer.joined
  let (d, _) ← Lexer.word (fun isClosed => part maxDepth (.inside isClosed)) (some mark)
    Lexer.manySteps { level } c
  Lexer.checkClosed true d
  return d.signs.reverse

end Parser
end LintRelay.Shell

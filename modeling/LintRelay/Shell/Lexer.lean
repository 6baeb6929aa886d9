import LintRelay.Shell.Reader
/-! How a word of a script is read. Inside quotes, braces and arithmetic the same characters mean
different things; a stack of levels keeps what they mean at the moment. -/
namespace LintRelay.Shell

inductive Style where
  | bare
  | single
  | double
  | arith
  deriving DecidableEq, Repr

structure Level where
  style : Style
  /-- Whether double quotes have been opened inside braces. -/
  inner : Bool := false
  /-- Whether the level ends with its braces. -/
  pushed : Bool := false
  double : Bool := false
  /-- Braces that are open. -/
  braces : Nat := 0
  /-- Those of them that double quotes surround. -/
  quotedBraces : Nat := 0
  parens : Nat := 0
  deriving DecidableEq, Repr

inductive Role where
  | newline
  | ordinary
  /-- A character that has a meaning elsewhere, and is to have none here. -/
  | guarded
  | backslash
  | singleQuote
  | doubleQuote
  | endQuote
  | dollar
  | endBrace
  | openParen
  | closeParen
  | backquote
  | eof
  | separator
  deriving DecidableEq, Repr

/-- Bytes that the shell keeps for itself. -/
def isInternal (c : Char) : Bool := '\x81' ≤ c && c ≤ '\x88'

def isGuarded (c : Char) : Bool := isInternal c || "!*?[=~:/-]".toList.contains c

def bareRole (c : Char) : Role :=
  match c with
  | '\n' => .newline
  | '\\' => .backslash
  | '\x27' => .singleQuote
  | '"' => .doubleQuote
  | '\x60' => .backquote
  | '$' => .dollar
  | '\x7d' => .endBrace
  | '<' | '>' | '(' | ')' | ';' | '&' | '|' | ' ' | '\t' => .separator
  | c => if isInternal c then .guarded else .ordinary

def doubleRole (c : Char) : Role :=
  match c with
  | '\n' => .newline
  | '\\' => .backslash
  | '"' => .endQuote
  | '\x60' => .backquote
  | '$' => .dollar
  | '\x7d' => .endBrace
  | c => if isGuarded c then .guarded else .ordinary

def singleRole (c : Char) : Role :=
  match c with
  | '\n' => .newline
  | '\x27' => .endQuote
  | c => if c == '\\' || isGuarded c then .guarded else .ordinary

def arithRole (c : Char) : Role :=
  match c with
  | '\n' => .newline
  | '\\' => .backslash
  | '\x60' => .backquote
  | '$' => .dollar
  | '\x7d' => .endBrace
  | '(' => .openParen
  | ')' => .closeParen
  | c => if isInternal c then .guarded else .ordinary

def Style.role (s : Style) : Option Char → Role
  | none => .eof
  | some c =>
    match s with
    | .bare => bareRole c
    | .double => doubleRole c
    | .single => singleRole c
    | .arith => arithRole c

/-- The line that ends a document, if anything ends it, and whether tabs at the start of lines do
not count. -/
structure EndMark where
  text : Option Octets
  stripTabs : Bool

structure Draft where
  level : Level
  outer : List Level := []
  /-- The signs, last first. -/
  signs : List Sign := []
  hasQuotes : Bool := false

namespace Draft

def add (d : Draft) (s : Sign) : Draft := { d with signs := s :: d.signs }

def addChar (d : Draft) (c : Option Char) : Draft :=
  match c with
  | some c => d.add (.char c)
  | none => d

def push (d : Draft) (l : Level) : Draft := { d with level := l, outer := d.level :: d.outer }

def pop (d : Draft) : Draft :=
  match d.outer with
  | l :: outer => { d with level := l, outer }
  | [] => d

end Draft

namespace Lexer

def manySteps : Nat := 1000000000

def joined : Read (Option Char) := Read.joined manySteps

/-- The next character as a level reads it. -/
def topChar (l : Level) : Read (Option Char) := if l.style == .single then Read.char else joined

def skipTabs : (steps : Nat) → Option Char → Read (Option Char)
  | 0, c => return c
  | steps + 1, c => if c == some '\t' then do skipTabs steps (← Read.char) else return c

/-- Whether the line that begins with `c` is a given text; if not, it is put back. The answer is the
character to go on with. -/
def matchMark (seen : List (Option Char)) : Octets → Option Char → Read (Option Char)
  | [], c => do
    if c == some '\n' || c == none then
      Read.nextLine
      return none
    else giveBack (c :: seen)
  | m :: ms, c => do
    if c == some m then matchMark (c :: seen) ms (← Read.char) else giveBack (c :: seen)
where
  /-- Puts back all but the first of some characters, which are given last first. -/
  giveBack (seen : List (Option Char)) : Read (Option Char) := do
    let seen := seen.reverse
    modify fun s => { s with back := seen.tail ++ s.back }
    return seen.headD none

def checkMark (mark : Option EndMark) (c : Option Char) : Read (Option Char) :=
  match mark with
  | some ⟨some text, stripTabs⟩ => do
    let c ← if stripTabs then skipTabs manySteps c else pure c
    matchMark [] text c
  | _ => return c

def backquoted (double : Bool) : (steps : Nat) → Octets → Read Octets
  | 0, seen => return seen.reverse
  | steps + 1, seen => do
    match ← joined with
    | none => Read.fail "EOF in backquote substitution"
    | some '\x60' => return seen.reverse
    | some '\\' =>
      match ← Read.char with
      | some c =>
        let kept := !(c == '\\' || c == '\x60' || c == '$' || (double && c == '"'))
        backquoted double steps (if kept then c :: '\\' :: seen else c :: seen)
      | none =>
        Read.unread none
        backquoted double steps ('\\' :: seen)
    | some c =>
      if c == '\n' then Read.nextLine
      backquoted double steps (c :: seen)

/-- A name, or the digits of a parameter; with what follows it. -/
def nameFrom (p : Char → Bool) : (steps : Nat) → Octets → Option Char → Read (Octets × Option Char)
  | 0, seen, c => return (seen.reverse, c)
  | steps + 1, seen, c => do
    match c with
    | some d => if p d then nameFrom p steps (d :: seen) (← joined) else return (seen.reverse, c)
    | none => return (seen.reverse, c)

structure Head where
  name : Octets
  action : Action
  orEmpty : Bool := false

/-- The action after a name in braces. The character that does not belong to it is put back. -/
def readAction (c : Option Char) : Read (Action × Bool) := do
  let plain (c : Option Char) : Option Action :=
    match c with
    | some '\x7d' => some .value
    | some '-' => some .fallback
    | some '+' => some .replacement
    | some '?' => some .demand
    | some '=' => some .assign
    | _ => none
  match c with
  | some ':' =>
    let c ← joined
    match plain c with
    | some a => return (a, true)
    | none => return (.unknown, true)
  | some '%' | some '#' =>
    let next ← joined
    let longest := next == c
    if !longest then Read.unread next
    return (if c == some '%' then .trimEnd longest else .trimStart longest, false)
  | c =>
    match plain c with
    | some a => return (a, false)
    | none => return (.unknown, false)

def readName (c : Option Char) : Read (Option (Octets × Option Char)) := do
  match c with
  | some d =>
    if isNameStart d then return some (← nameFrom isNamePart manySteps [] c)
    else if d.isDigit then return some (← nameFrom Char.isDigit manySteps [] c)
    else return none
  | none => return none

def readBraced : Read Head := do
  let c ← joined
  match ← readName c with
  | some (name, c) =>
    let (action, orEmpty) ← readAction c
    return ⟨name, action, orEmpty⟩
  | none =>
    if c == some '\x7d' then
      Read.unread c
      return ⟨[], .unknown, false⟩
    let next ← joined
    if c == some '#' then
      match ← readName next with
      | some (name, after) =>
        Read.unread after
        return ⟨name, if after == some '\x7d' then .length else .unknown, false⟩
      | none =>
        let after ← joined
        if next == some '\x7d' || after != some '\x7d' then
          Read.unread after
          let (action, orEmpty) ← readAction next
          return ⟨['#'], action, orEmpty⟩
        Read.unread after
        match next with
        | some d =>
          if isSpecial d then return ⟨[d], .length, false⟩
          else return ⟨[], .unknown, false⟩
        | none => return ⟨[], .unknown, false⟩
    else
      match c with
      | some d =>
        if isSpecial d then
          let (action, orEmpty) ← readAction next
          return ⟨[d], action, orEmpty⟩
        else
          Read.unread next
          return ⟨[], .unknown, false⟩
      | none =>
        Read.unread next
        return ⟨[], .unknown, false⟩

def openBraces (d : Draft) (h : Head) : Draft :=
  let isTrim := h.action matches .trimEnd _ | .trimStart _
  let style : Style :=
    if isTrim then .bare else if d.level.style == .arith then .double else d.level.style
  let d := d.add (.param h.name h.action h.orEmpty)
  if h.action == .value && !h.orEmpty then d
  else
    let d :=
      if style != d.level.style || d.level.inner then
        d.push { style, pushed := true, double := style != .bare }
      else d
    let l := d.level
    { d with level := { l with
      braces := l.braces + 1
      quotedBraces := if l.double then l.quotedBraces + 1 else l.quotedBraces } }

/-- What follows a dollar sign. A command inside the word is read by `sub`, which is told whether a
parenthesis closes it. -/
def readDollar (sub : Bool → Read (Option Command)) (d : Draft) : Read Draft := do
  let c ← joined
  let literal : Read Draft := do
    Read.unread c
    return d.add (.char '$')
  if (← get).look.endMark then literal
  else
    match c with
    | none => literal
    | some '(' =>
      match ← joined with
      | some '(' => return (d.add .arith).push { style := .arith, double := true }
      | next =>
        Read.unread next
        return d.add (.command (← sub true))
    | some '\x7b' => return openBraces d (← readBraced)
    | some n =>
      if isNameStart n then
        let (name, next) ← nameFrom isNamePart manySteps [] c
        Read.unread next
        return d.add (.param name .value false)
      else if isSpecial n then return d.add (.param [n] .value false)
      else literal

/-- Whether a backslash before a character stays inside double quotes. -/
def keepsBackslash (inDocument : Bool) (l : Level) (c : Char) : Bool :=
  l.double && c != '\\' && c != '\x60' && c != '$' &&
    (c != '"' || (inDocument && l.braces == 0)) && (c != '\x7d' || l.braces == 0)

/-- Changes between quoted and not quoted; in braces this is noted too. -/
def toggle (inDocument : Bool) (c : Option Char) (d : Draft) : Draft :=
  let l := d.level
  let d :=
    if c == some '"' && l.braces != 0 then { d with level := { l with inner := !l.inner } } else d
  if inDocument then d else d.add .mark

/-- A brace that may close a parameter. -/
def endBrace (d : Draft) : Draft :=
  let l := d.level
  if !l.inner && 0 < l.braces then
    let l := { l with braces := l.braces - 1 }
    let d := { d with level := l }
    let d :=
      if l.braces == 0 && l.pushed then d.pop
      else { d with level := { l with quotedBraces := l.quotedBraces - 1 } }
    d.add .close
  else d.add (.char '\x7d')

/-- Reads a word, given its first character. What comes back is the word and the character that
ended it. -/
def word (sub : Bool → Read (Option Command)) (mark : Option EndMark) :
    (steps : Nat) → Draft → Option Char → Read (Draft × Option Char)
  | 0, d, c => return (d, c)
  | steps + 1, d, c => do
    let l := d.level
    let inDocument := mark.isSome
    match l.style.role c with
    | .eof => return (d, c)
    | .newline =>
      if l.style == .bare && l.braces == 0 then return (d, c)
      Read.nextLine
      word sub mark steps (d.addChar c) (← checkMark mark (← Read.char))
    | .ordinary => word sub mark steps (d.addChar c) (← topChar l)
    | .guarded =>
      let d := if !inDocument || l.double then d.add (.quoted (c.getD ' ')) else d.addChar c
      word sub mark steps d (← topChar l)
    | .backslash =>
      match ← Read.char with
      | none =>
        Read.unread none
        word sub mark steps (d.add (.quoted '\\')) (← topChar l)
      | some e =>
        let d := if keepsBackslash inDocument l e then d.add (.quoted '\\') else d
        word sub mark steps { d.add (.quoted e) with hasQuotes := true } (← topChar l)
    | .singleQuote =>
      let d := { d with level := { l with style := .single } }
      word sub mark steps (toggle inDocument c d) (← topChar d.level)
    | .doubleQuote =>
      let d := { d with level := { l with style := .double, double := true } }
      word sub mark steps (toggle inDocument c d) (← topChar d.level)
    | .endQuote =>
      if inDocument && l.braces == 0 then word sub mark steps (d.addChar c) (← topChar l)
      else
        let d :=
          if l.quotedBraces == 0 then { d with level := { l with style := .bare, double := false } }
          else d
        word sub mark steps { toggle inDocument c d with hasQuotes := true } (← topChar d.level)
    | .dollar =>
      let d ← readDollar sub d
      word sub mark steps d (← topChar d.level)
    | .endBrace =>
      let d := endBrace d
      word sub mark steps d (← topChar d.level)
    | .openParen =>
      let d := { d with level := { l with parens := l.parens + 1 } }
      word sub mark steps (d.addChar c) (← topChar l)
    | .closeParen =>
      if 0 < l.parens then
        let d := { d with level := { l with parens := l.parens - 1 } }
        word sub mark steps (d.addChar c) (← topChar l)
      else
        match ← joined with
        | some ')' =>
          let d := (d.add .closeArith).pop
          word sub mark steps d (← topChar d.level)
        | next =>
          Read.unread next
          word sub mark steps (d.addChar c) (← topChar l)
    | .backquote =>
      if (← get).look.endMark then word sub mark steps (d.addChar c) (← topChar l)
      else
        let text ← backquoted l.double manySteps []
        let body ← Read.aside text (sub false)
        word sub mark steps (d.add (.command body)) (← topChar l)
    | .separator =>
      if l.braces == 0 then return (d, c)
      word sub mark steps (d.addChar c) (← topChar l)

def checkClosed (inDocument : Bool) (d : Draft) : Read Unit := do
  if d.level.style == .arith then Read.fail "Missing '))'"
  if d.level.style != .bare && !inDocument then Read.fail "Unterminated quoted string"
  if d.level.braces != 0 then Read.fail "Missing '\x7d'"

def readProto (fd? : Option Nat) (c : Char) : Read Proto := do
  if c == '>' then
    let fd := fd?.getD 1
    match ← joined with
    | some '>' => return .file fd .append
    | some '|' => return .file fd .overwrite
    | some '&' => return .copy fd
    | next =>
      Read.unread next
      return .file fd .write
  else
    let fd := fd?.getD 0
    match ← joined with
    | some '<' =>
      match ← joined with
      | some '-' => return .here fd true
      | next =>
        Read.unread next
        return .here fd false
    | some '&' => return .copy fd
    | some '>' => return .file fd .both
    | next =>
      Read.unread next
      return .file fd .read

/-- The descriptor that a word before a redirection names; a word that is none is a word. -/
def redirectFd? (d : Draft) : Option (Option Nat) :=
  if d.hasQuotes then none
  else
    match d.signs with
    | [] => some none
    | [.char c] => if c.isDigit then some (some (c.toNat - 48)) else none
    | _ => none

def wordToken (sub : Bool → Read (Option Command)) (c : Option Char) : Read Token := do
  let (d, c) ← word sub none manySteps { level := { style := .bare } } c
  checkClosed false d
  match c, redirectFd? d with
  | some '>', some fd =>
    let proto ← readProto fd '>'
    modify fun s => { s with proto }
    return .redirect
  | some '<', some fd =>
    let proto ← readProto fd '<'
    modify fun s => { s with proto }
    return .redirect
  | c, _ =>
    Read.unread c
    modify fun s => { s with word := d.signs.reverse, quoted := d.hasQuotes }
    return .word

def rawToken (sub : Bool → Read (Option Command)) : (steps : Nat) → Read Token
  | 0 => return .eof
  | steps + 1 => do
    let either (second : Char) (two one : Token) : Read Token := do
      match ← joined with
      | none =>
        Read.unread none
        return one
      | some c =>
        if c == second then return two
        Read.unread (some c)
        return one
    match ← joined with
    | some ' ' | some '\t' => rawToken sub steps
    | some '#' =>
      Read.skipLine manySteps
      rawToken sub steps
    | some '\n' =>
      Read.nextLine
      return .newline
    | none => return .eof
    | some '&' => either '&' .and .background
    | some '|' => either '|' .or .pipe
    | some ';' => either ';' .endCase .semicolon
    | some '(' => return .openParen
    | some ')' => return .closeParen
    | c => wordToken sub c

def readDocuments (sub : Bool → Read (Option Command)) : List Awaited → Read Unit
  | [] => return
  | a :: rest => do
    let mark : EndMark := ⟨some a.mark, a.stripTabs⟩
    let c ← if a.expand then joined else Read.char
    let level : Level :=
      if a.expand then { style := .double, double := true } else { style := .single }
    let (d, _) ← word sub (some mark) manySteps { level } (← checkMark (some mark) c)
    checkClosed true d
    modify fun s =>
      { s with documents := s.documents.setIfInBounds a.document ⟨d.signs.reverse, a.expand⟩ }
    readDocuments sub rest

def documents (sub : Bool → Read (Option Command)) : Read Unit := do
  let awaited := (← get).awaited
  modify fun s => { s with awaited := [] }
  readDocuments sub awaited

/-- The next token, or the last one once more. -/
def nextToken (sub : Bool → Read (Option Command)) : Read Token := do
  let s ← get
  if s.again then
    set { s with again := false }
    return s.last
  let t ← rawToken sub manySteps
  modify fun s => { s with last := t }
  return t

def skipNewlines (sub : Bool → Read (Option Command)) : (steps : Nat) → Token → Read Token
  | 0, t => return t
  | steps + 1, t => do
    if t == .newline then
      documents sub
      modify fun s => { s with look := {} }
      skipNewlines sub steps (← nextToken sub)
    else return t

/-- The next token: keywords are told from words and aliases put in where that is asked for. -/
def token (sub : Bool → Read (Option Command)) (asked : Look) : (steps : Nat) → Read Token
  | 0 => return .eof
  | steps + 1 => do
    let t ← nextToken sub
    let t ← if asked.newlines then skipNewlines sub manySteps t else pure t
    let s ← get
    let asked := { asked with
      keywords := asked.keywords || s.look.keywords, aliases := asked.aliases || s.look.aliases }
    set { s with look := {} }
    if t != .word || s.quoted then return t
    match Word.plain? s.word with
    | none => return t
    | some text =>
      match (if asked.keywords then Keyword.ofText? text else none) with
      | some k =>
        modify fun s => { s with last := .keyword k }
        return .keyword k
      | none =>
        match (if asked.aliases && !Read.isInUse s text then s.aliases.lookup text else none) with
        | some value =>
          if !value.isEmpty then Read.insertAlias text value
          token sub asked steps
        | none => return t

end Lexer
end LintRelay.Shell

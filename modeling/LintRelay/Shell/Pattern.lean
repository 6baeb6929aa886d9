import LintRelay.Shell.Syntax
/-! Patterns that a text is compared with: a star for any text, a question mark for one character and
a bracket for one character out of some. A backslash takes the meaning from what follows it. -/
namespace LintRelay.Shell

/-- A character as a number. Bytes above the ordinary ones count as negative. -/
def signedCode (c : Char) : Int := if c.toNat < 128 then c.toNat else (c.toNat : Int) - 256

inductive Item where
  | range (first last : Char)
  | named (p : Char → Bool)

def Item.admits (c : Char) : Item → Bool
  | .range first last => signedCode first ≤ signedCode c && signedCode c ≤ signedCode last
  | .named p => p c

inductive Glyph where
  | exactly (c : Char)
  /-- One character, whatever it is. -/
  | single
  /-- One character that some item admits, or with `negated` one that none does. -/
  | oneOf (negated : Bool) (items : List Item)
  /-- Any text, the empty one too. -/
  | anything

abbrev Pattern := List Glyph

def isGraphic (c : Char) : Bool := '!' ≤ c && c ≤ '~'

def characterClasses : List (String × (Char → Bool)) :=
  [("alnum", Char.isAlphanum), ("cntrl", fun c => c < ' ' || c == '\x7f'),
    ("lower", Char.isLower), ("space", fun c => c == ' ' || ('\t' ≤ c && c ≤ '\r')),
    ("alpha", Char.isAlpha), ("digit", Char.isDigit), ("print", fun c => c == ' ' || isGraphic c),
    ("upper", Char.isUpper), ("blank", fun c => c == ' ' || c == '\t'), ("graph", isGraphic),
    ("punct", fun c => isGraphic c && !c.isAlphanum),
    ("xdigit", fun c => c.isDigit || ('a' ≤ c && c ≤ 'f') || ('A' ≤ c && c ≤ 'F'))]

def Glyph.admits : Glyph → Char → Bool
  | .exactly d, c => c == d
  | .single, _ => true
  | .oneOf negated items, c => (items.any (Item.admits c)) != negated
  | .anything, _ => false

def suffixes : Octets → List Octets
  | [] => [[]]
  | c :: cs => (c :: cs) :: suffixes cs

namespace Pattern

def matchesText : Pattern → Octets → Bool
  | [], text => text.isEmpty
  | .anything :: p, text => anywhere p text
  | _ :: _, [] => false
  | g :: p, c :: cs => g.admits c && matchesText p cs
where
  /-- Whether a pattern matches some end of a text. -/
  anywhere (p : Pattern) (text : Octets) : Bool := (suffixes text).any (matchesText p)

@[simp] theorem matchesText_nil (text : Octets) : matchesText [] text = text.isEmpty := by
  simp [matchesText]

def class? (text : Octets) : Option (Item × Octets) :=
  characterClasses.findSome? fun (name, p) =>
    let spelled := ':' :: name.toList ++ [':', ']']
    if spelled.isPrefixOf text then some (.named p, text.drop spelled.length) else none

/-- The items up to the bracket that closes them, and what follows it; `c` is the next character. A
step takes at least one character. -/
def items (seen : List Item) : (steps : Nat) → Char → Octets → Option (List Item × Octets)
  | 0, _, _ => none
  | steps + 1, c, rest =>
    let after (i : Item) (rest : Octets) : Option (List Item × Octets) :=
      match rest with
      | [] => none
      | ']' :: rest => some (i :: seen, rest)
      | c :: rest => items (i :: seen) steps c rest
    let one (c : Char) (rest : Octets) : Option (List Item × Octets) :=
      match rest with
      | '-' :: d :: more =>
        if d == ']' then after (.range c c) rest
        else
          match d, more with
          | '\\', e :: more => after (.range c e) more
          | d, more => after (.range c d) more
      | rest => after (.range c c) rest
    if c == '[' then
      match class? rest with
      | some (i, rest) => after i rest
      | none => one c rest
    else if c == '\\' then
      match rest with
      | d :: rest => one d rest
      | [] => none
    else one c rest

def bracket? (text : Octets) : Option (Glyph × Octets) :=
  let negated := text.head? == some '!'
  match (if negated then text.tail else text) with
  | [] => none
  | c :: rest =>
    (items [] (text.length + 1) c rest).map fun (is, rest) => (.oneOf negated is, rest)

/-- Reads a pattern; each step takes at least one character. -/
def read (seen : List Glyph) : (steps : Nat) → Octets → Pattern
  | 0, _ => seen.reverse
  | _, [] => seen.reverse
  | steps + 1, c :: cs =>
    match c with
    | '*' => read (.anything :: seen) steps cs
    | '?' => read (.single :: seen) steps cs
    | '[' =>
      match bracket? cs with
      | some (g, rest) => read (g :: seen) steps rest
      | none => read (.exactly '[' :: seen) steps cs
    | '\\' =>
      match cs with
      | d :: cs => read (.exactly d :: seen) steps cs
      | [] => read (.exactly '\\' :: seen) steps []
    | c => read (.exactly c :: seen) steps cs

def ofText (text : Octets) : Pattern := read [] (text.length + 1) text

/-- How much a pattern takes off one end of a text, as much or as little as possible. -/
def trim (p : Pattern) (front longest : Bool) (text : Octets) : Option Nat :=
  let lengths := List.range (text.length + 1)
  let order := if longest then lengths.reverse else lengths
  order.find? fun n =>
    p.matchesText (if front then text.take n else text.drop (text.length - n))

end Pattern
end LintRelay.Shell

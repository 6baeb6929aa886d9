import LintRelay.Process.Octets
/-! How tools show a text that may hold anything, such as a file name. Where a shell could take the
text otherwise than it is meant, it is put in quotes; what cannot be printed is spelled out by its
code. -/
namespace LintRelay.Tool

def isPrintable (c : Char) : Bool := ' ' ≤ c && c ≤ '~'

def octalDigits (c : Char) : Octets :=
  [Char.ofNat (48 + c.toNat / 64), Char.ofNat (48 + c.toNat / 8 % 8), Char.ofNat (48 + c.toNat % 8)]

def controlLetter? : Char → Option Char
  | '\x07' => some 'a'
  | '\x08' => some 'b'
  | '\x0c' => some 'f'
  | '\n' => some 'n'
  | '\r' => some 'r'
  | '\t' => some 't'
  | '\x0b' => some 'v'
  | _ => none

def spelling? (c : Char) : Option Octets :=
  match controlLetter? c with
  | some l => some [l]
  | none => if isPrintable c then none else some (octalDigits c)

namespace Quote

def isSpecial (c : Char) : Bool := "!\"$&()*;<=>[^\x60| ?\\\x27".toList.contains c

/-- Whether a text can be shown as it is, as far as a shell is concerned. -/
def isPlain (text : Octets) : Bool :=
  !text.isEmpty && text.all (fun c => isPrintable c && !isSpecial c) &&
    !(text.head? == some '#' || text.head? == some '~') && text != ['\x7b'] && text != ['\x7d']

/-- Whether a character means the same between double quotes as between single ones. -/
def isNeutral (c : Char) : Bool :=
  isPrintable c && (c == '\x27' || c == ' ' || !(isSpecial c || "\x7b\x7d#~".toList.contains c))

def fitsDouble (text : Octets) : Bool :=
  text.contains '\x27' && text.tail.all isNeutral &&
    (text.head?.map fun c => isNeutral c || c == '#' || c == '~').getD true

/-- Adds a character between single quotes. The flag tells whether codes are being spelled out. -/
def add (soFar : List Octets × Bool) (c : Char) : List Octets × Bool :=
  match spelling? c with
  | some s => ((if soFar.2 then '\\' :: s else "\x27$\x27\\".toList ++ s) :: soFar.1, true)
  | none =>
    if c == '\x27' then ("\x27\\\x27\x27".toList :: soFar.1, false)
    else ((if soFar.2 then ['\x27', '\x27', c] else [c]) :: soFar.1, false)

/-- A text in the quotes that a shell would need. A text with a single quote in it is gone through
twice, first to see how it can be quoted; the second time goes on as the first one has ended, with or
without a code being spelled out. -/
def always (text : Octets) : Octets :=
  if fitsDouble text then '"' :: text ++ ['"']
  else
    let spelling := text.contains '\x27' && (text.foldl add ([], false)).2
    '\x27' :: (text.foldl add ([], spelling)).1.reverse.flatten ++ ['\x27']

/-- A text, in quotes only if a shell would need them. -/
def forShell (text : Octets) : Octets := if isPlain text then text else always text

/-- A text before a colon, in quotes if a shell would need them or it holds a colon itself. -/
def ifNeeded (text : Octets) : Octets :=
  if isPlain text && !text.contains ':' then text else always text

/-- A text in single quotes for a reader, with whatever is unclear spelled out. -/
def forReader (text : Octets) : Octets :=
  let shown (c : Char) : Octets :=
    match spelling? c with
    | some s => '\\' :: s
    | none => if c == '\\' || c == '\x27' then ['\\', c] else [c]
  '\x27' :: text.flatMap shown ++ ['\x27']

end Quote
end LintRelay.Tool

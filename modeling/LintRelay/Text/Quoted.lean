import LintRelay.Text.Printable
import LintRelay.Text.Utf8
/-! Quoted text: what a message shows of a string that may hold anything. -/
namespace LintRelay.Text

def codeEscape (c : Char) : List Char :=
  ['\\', 'u', '\x7b'] ++ Nat.toDigits 16 c.toNat ++ ['\x7d']

def quoteChar (c : Char) : List Char :=
  if c == '"' then ['\\', '"']
  else if c == '\\' then ['\\', '\\']
  else if c == '\n' then ['\\', 'n']
  else if c == '\r' then ['\\', 'r']
  else if c == '\t' then ['\\', 't']
  else if c.toNat == 0 then ['\\', '0']
  else if isPrintable c && !isExtender c then [c]
  else codeEscape c

/-- A text in double quotes, with escapes for the quote, the backslash and whatever does not show
by itself. -/
def quoted (s : String) : String :=
  String.ofList ('"' :: s.toList.flatMap quoteChar ++ ['"'])

def byteEscape (b : UInt8) : List Char :=
  let digit (n : Nat) : Char := (Nat.digitChar n).toUpper
  ['\\', 'x', digit (b.toNat / 16), digit (b.toNat % 16)]

/-- Quotes bytes; `held` are those of the sequence in progress, last first. -/
def quoteBytesFrom (state : Option Utf8.Sequence) (held : Bytes) (acc : List Char) :
    Bytes → List Char
  | [] => (held.reverse.flatMap byteEscape).reverse ++ acc |>.reverse
  | b :: bs =>
    match Utf8.step state b with
    | .char c => quoteBytesFrom none [] ((quoteChar c).reverse ++ acc) bs
    | .more s => quoteBytesFrom (some s) (b :: held) acc bs
    | .reject =>
      let acc := (held.reverse.flatMap byteEscape).reverse ++ acc
      match state with
      | none => quoteBytesFrom none [] ((byteEscape b).reverse ++ acc) bs
      | some _ =>
        match Utf8.first b with
        | .char c => quoteBytesFrom none [] ((quoteChar c).reverse ++ acc) bs
        | .more s => quoteBytesFrom (some s) [b] acc bs
        | .reject => quoteBytesFrom none [] ((byteEscape b).reverse ++ acc) bs

/-- Bytes in double quotes: text as in `quoted`, and whatever is not UTF-8 byte by byte. -/
def quotedBytes (bs : Bytes) : String :=
  String.ofList ('"' :: quoteBytesFrom none [] [] bs ++ ['"'])

end LintRelay.Text

import LintRelay.Text.Utf8
/-! Bytes written as characters. Programs work on bytes and know no encoding; each byte is written
as the character of the same code, so that texts with a meaning can be spelled out. -/
namespace LintRelay

/-- Bytes, each written as the character of the same code. -/
abbrev Octets := List Char

def octets (bs : Bytes) : Octets := bs.map fun b => Char.ofNat b.toNat

namespace Octets

def bytes (cs : Octets) : Bytes := cs.map fun c => UInt8.ofNat c.toNat

def ofString (s : String) : Octets := octets (Bytes.ofString s)

def ofNat (n : Nat) : Octets := Nat.toDigits 10 n

def join (between : Octets) (parts : List Octets) : Octets := between.intercalate parts

def splitOn (at_ : Char) (text : Octets) : List Octets :=
  text.foldr (fun c parts =>
    match parts with
    | part :: more => if c == at_ then [] :: part :: more else (c :: part) :: more
    | [] => []) [[]]

/-- The order of texts by their bytes: a shorter one comes before what continues it. -/
def le : Octets → Octets → Bool
  | [], _ => true
  | _ :: _, [] => false
  | a :: as, b :: bs => if a == b then le as bs else a.toNat < b.toNat

def dropEnd? (text ending : Octets) : Option Octets :=
  if ending.length ≤ text.length && text.drop (text.length - ending.length) == ending then
    some (text.take (text.length - ending.length))
  else none

end Octets
end LintRelay

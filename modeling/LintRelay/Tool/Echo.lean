import LintRelay.Format.Numeral
import LintRelay.Tool.Session
/-! `echo` prints its arguments, if asked to with what backslashes stand for. -/
namespace LintRelay.Tool.Echo

open Format

def isOctal (c : Char) : Bool := '0' ≤ c && c ≤ '7'

def letter? : Char → Option Char
  | 'a' => some '\x07'
  | 'b' => some '\x08'
  | 'e' => some '\x1b'
  | 'f' => some '\x0c'
  | 'n' => some '\n'
  | 'r' => some '\r'
  | 't' => some '\t'
  | 'v' => some '\x0b'
  | '\\' => some '\\'
  | _ => none

def escape (text : Octets) : Octets × Octets :=
  match text with
  | [] => (['\\'], [])
  | c :: rest =>
    match letter? c with
    | some l => ([l], rest)
    | none =>
      if c == 'x' then
        let digits := (rest.take 2).takeWhile (isDigitOf 16)
        if digits.isEmpty then (['\\', 'x'], rest)
        else ([Char.ofNat (valueOf 16 digits)], rest.drop digits.length)
      else if isOctal c then
        let digits := if c == '0' then (rest.take 3).takeWhile isOctal
          else c :: (rest.take 2).takeWhile isOctal
        let used := if c == '0' then digits.length else digits.length - 1
        ([Char.ofNat (valueOf 8 digits % 256)], rest.drop used)
      else (['\\', c], rest)

/-- Carries out backslashes; the flag tells that printing ends there. Each step takes a character. -/
def unescape (seen : List Octets) : (steps : Nat) → Octets → Octets × Bool
  | 0, _ => (seen.reverse.flatten, false)
  | _, [] => (seen.reverse.flatten, false)
  | _, '\\' :: 'c' :: _ => (seen.reverse.flatten, true)
  | steps + 1, '\\' :: rest =>
    let (text, rest) := escape rest
    unescape (text :: seen) steps rest
  | steps + 1, c :: rest => unescape ([c] :: seen) steps rest

structure Wish where
  line : Bool := true
  escapes : Bool := false

/-- The letters of an argument, if it is one that says how to print. -/
def letters? : Octets → Option Octets
  | '-' :: c :: cs =>
    if (c :: cs).all fun l => l == 'n' || l == 'e' || l == 'E' then some (c :: cs) else none
  | _ => none

def Wish.add (w : Wish) : Char → Wish
  | 'n' => { w with line := false }
  | 'e' => { w with escapes := true }
  | _ => { w with escapes := false }

def readWish (w : Wish) : List Octets → Wish × List Octets
  | [] => (w, [])
  | arg :: rest =>
    match letters? arg with
    | some ls => readWish (ls.foldl Wish.add w) rest
    | none => (w, arg :: rest)

/-- With what the standard says, backslashes are always carried out, and `-n` has to come first for
arguments to say how to print. -/
def run (args : List Octets) : Use Unit := do
  let standard ← Use.isStandard
  let free := !standard || args.head? == some "-n".toList
  if free && (args == ["--help".toList] || args == ["--version".toList]) then Use.exit 0
  let (w, args) := if free then readWish {} args else ({}, args)
  let w := { w with escapes := w.escapes || standard }
  let text := Octets.join [' '] args
  let (text, ended) := if w.escapes then unescape [] (text.length + 1) text else (text, false)
  Use.say text
  if w.line && !ended then Use.say ['\n']

end LintRelay.Tool.Echo

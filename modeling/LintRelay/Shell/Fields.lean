import LintRelay.Shell.Syntax
/-! How what came out of a word is cut into fields. Only what was put in without quotes is cut, and
only at separators; of these blanks count less than others: several of them are one, and none are
counted at the ends. -/
namespace LintRelay.Shell

inductive Cell where
  | plain (c : Char)
  | quoted (c : Char)
  /-- A quotation mark. It makes a field even of nothing. -/
  | mark
  /-- Where one argument ends and the next one begins. -/
  | gap
  deriving DecidableEq, Repr

/-- A part that may be cut; with `gapsOnly` nowhere but between arguments. -/
structure Region where
  first : Nat
  last : Nat
  gapsOnly : Bool := false
  deriving DecidableEq, Repr

structure Outcome where
  cells : Array Cell := #[]
  regions : Array Region := #[]

namespace Outcome

def add (o : Outcome) (c : Cell) : Outcome := { o with cells := o.cells.push c }

def addAll (o : Outcome) (cs : List Cell) : Outcome := { o with cells := cs.foldl Array.push o.cells }

def record (o : Outcome) (first : Nat) (gapsOnly : Bool) : Outcome :=
  { o with regions := o.regions.push ⟨first, o.cells.size, gapsOnly⟩ }

end Outcome

def Cell.char? : Cell → Option Char
  | .plain c => some c
  | .quoted c => some c
  | _ => none

def textOf (cells : List Cell) : Octets := cells.filterMap Cell.char?

/-- The text of cells as a pattern: what is quoted gets a backslash, unless a backslash that is not
quoted already stands before it. -/
def patternOf (cells : List Cell) : Octets :=
  let step (soFar : Octets × Bool) (c : Cell) : Octets × Bool :=
    match c with
    | .mark => (soFar.1, true)
    | .plain '\\' => ('\\' :: soFar.1, false)
    | .plain c => (c :: soFar.1, true)
    | .quoted c => (if soFar.2 then c :: '\\' :: soFar.1 else c :: soFar.1, true)
    | .gap => soFar
  (cells.foldl step ([], true)).1.reverse

def blanks : Octets := " \t\n".toList

structure Cutting where
  fields : List (Nat × Nat) := []
  start : Nat := 0
  afterBlank : Bool := false
  /-- Where the last field ends, if something at its end does not count. -/
  stop : Option Nat := none
  /-- How many fields are still to be cut off; nothing for as many as there are. -/
  left : Option Nat := none

def Cutting.step (separators : Octets) (afterGaps gapsOnly : Bool) (k : Cutting) (q : Nat)
    (c : Cell) : Cutting :=
  let isBlank : Bool :=
    match c with
    | .gap => true
    | c => c.char?.any fun d => separators.contains d && blanks.contains d
  let isSeparator : Bool :=
    match c with
    | .gap => true
    | c => c.char?.any fun d => separators.contains d
  if k.left == some 0 then
    if isBlank then { k with stop := k.stop <|> some q }
    else
      { k with stop := if isSeparator && k.afterBlank then k.stop else none, afterBlank := false }
  else
    let wasBlank := k.afterBlank
    let k := if wasBlank then { k with start := if isSeparator then q + 1 else q } else k
    if wasBlank && isBlank then k
    else if isSeparator && !wasBlank then
      let k := if afterGaps || gapsOnly then k else { k with afterBlank := isBlank }
      if q == k.start && k.afterBlank then { k with start := q + 1, afterBlank := false }
      else if k.left == some 1 then { k with left := some 0, stop := some q }
      else
        { k with
          fields := (k.start, q) :: k.fields
          start := q + 1
          left := k.left.map (· - 1) }
    else { k with afterBlank := false }

def Cutting.region (cells : Array Cell) (separators : Octets) (soFar : Cutting × Bool) (r : Region) :
    Cutting × Bool :=
  let (k, afterGaps) := soFar
  let separators := if r.gapsOnly then [] else separators
  let k := { k with afterBlank := false }
  let places := (List.range (r.last - r.first)).map (· + r.first)
  (places.foldl (fun k q =>
    k.step separators afterGaps r.gapsOnly q (cells.getD q .mark)) k, r.gapsOnly)

/-- Cuts what came out of a word into fields, at most as many as `left` says. -/
def Outcome.fields (o : Outcome) (separators : Octets) (left : Option Nat := none) :
    List (List Cell) :=
  let (k, gapsOnly) := o.regions.toList.foldl (Cutting.region o.cells separators) ({ left }, false)
  let stop := k.stop.getD o.cells.size
  let isLast := gapsOnly || k.start < stop
  let all := if isLast then (k.start, if gapsOnly then o.cells.size else stop) :: k.fields else k.fields
  all.reverse.map fun (first, last) => (o.cells.extract first last).toList

end LintRelay.Shell

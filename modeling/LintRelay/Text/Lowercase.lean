import LintRelay.Text.Case
/-! Full lower case of a text. Two characters need more than a table: the dotted capital I becomes
two characters, and the capital sigma looks at its neighbours. -/
namespace LintRelay.Text

def casedAhead (cs : List Char) : Bool :=
  match cs.dropWhile isCaseIgnorable with
  | [] => false
  | c :: _ => isCased c

/-- The final form ends a word: a letter with case stands before it and none after it. -/
def lowerSigma (before after : List Char) : Char :=
  if casedAhead before && !casedAhead after then 'ς' else 'σ'

/-- Lower case of a text whose part `before`, in reverse, has been read. -/
def lowercaseFrom (before : List Char) (acc : List Char) : List Char → List Char
  | [] => acc.reverse
  | c :: cs =>
    let acc :=
      if c == 'Σ' then lowerSigma before cs :: acc
      else if c == 'İ' then '\u0307' :: 'i' :: acc
      else lowerChar c :: acc
    lowercaseFrom (c :: before) acc cs

def lowercaseChars (cs : List Char) : List Char := lowercaseFrom [] [] cs

end LintRelay.Text

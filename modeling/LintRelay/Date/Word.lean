import LintRelay.Process.Octets
/-! The words and numbers of a description of a point in time, such as `3 days ago` or
`1 May 2020 10:00`. Letters count the same whether they are small or capital. -/
namespace LintRelay.Date

structure Numeral where
  value : Int
  digits : Nat
  negative : Bool := false
  deriving DecidableEq, Repr

inductive Span where
  | years
  | months
  | days
  | hours
  | minutes
  | seconds
  deriving DecidableEq, Repr

inductive Word where
  | number (n : Numeral)
  /-- A number with a sign. -/
  | signed (n : Numeral)
  /-- A number with decimals, in nanoseconds. -/
  | decimal (hasSign : Bool) (nanos : Int)
  /-- The first or the second half of a day. -/
  | half (afternoon : Bool)
  | month (n : Int)
  | weekday (n : Int)
  /-- How far the clocks of a zone are ahead, in seconds. -/
  | zone (offset : Int)
  /-- A zone whose clocks are ahead one hour more in summer. -/
  | summerZone (offset : Int)
  | localZone
  | summer
  /-- A unit, and how many of the span it stands for. -/
  | unit (s : Span) (count : Int)
  | dayShift (days : Int)
  | ordinal (n : Int)
  /-- Turns what stands before it back, or leaves it. -/
  | ago (sign : Int)
  | letterT
  | letterJ
  | mark (c : Char)
  | unknown
  deriving DecidableEq, Repr

namespace Word

def monthNames : List (String × Int) :=
  [("JANUARY", 1), ("FEBRUARY", 2), ("MARCH", 3), ("APRIL", 4), ("MAY", 5), ("JUNE", 6), ("JULY", 7),
    ("AUGUST", 8), ("SEPTEMBER", 9), ("SEPT", 9), ("OCTOBER", 10), ("NOVEMBER", 11),
    ("DECEMBER", 12)]

def dayNames : List (String × Int) :=
  [("SUNDAY", 0), ("MONDAY", 1), ("TUESDAY", 2), ("TUES", 2), ("WEDNESDAY", 3), ("WEDNES", 3),
    ("THURSDAY", 4), ("THUR", 4), ("THURS", 4), ("FRIDAY", 5), ("SATURDAY", 6)]

def units : List (String × Word) :=
  [("YEAR", .unit .years 1), ("MONTH", .unit .months 1), ("FORTNIGHT", .unit .days 14),
    ("WEEK", .unit .days 7), ("DAY", .unit .days 1), ("HOUR", .unit .hours 1),
    ("MINUTE", .unit .minutes 1), ("MIN", .unit .minutes 1), ("SECOND", .unit .seconds 1),
    ("SEC", .unit .seconds 1)]

def relatives : List (String × Word) :=
  [("TOMORROW", .dayShift 1), ("YESTERDAY", .dayShift (-1)), ("TODAY", .dayShift 0),
    ("NOW", .dayShift 0), ("LAST", .ordinal (-1)), ("THIS", .ordinal 0), ("NEXT", .ordinal 1),
    ("FIRST", .ordinal 1), ("THIRD", .ordinal 3), ("FOURTH", .ordinal 4), ("FIFTH", .ordinal 5),
    ("SIXTH", .ordinal 6), ("SEVENTH", .ordinal 7), ("EIGHTH", .ordinal 8), ("NINTH", .ordinal 9),
    ("TENTH", .ordinal 10), ("ELEVENTH", .ordinal 11), ("TWELFTH", .ordinal 12), ("AGO", .ago (-1)),
    ("HENCE", .ago 1)]

def halves : List (String × Word) :=
  [("AM", .half false), ("A.M.", .half false), ("PM", .half true), ("P.M.", .half true)]

/-- Zones by their usual names, in half hours. -/
def zones : List (String × Word) :=
  let z (halfHours : Int) : Word := .zone (1800 * halfHours)
  let d (halfHours : Int) : Word := .summerZone (1800 * halfHours)
  [("WET", z 0), ("WEST", d 0), ("BST", d 0), ("ART", z (-6)), ("BRT", z (-6)), ("BRST", d (-6)),
    ("NST", z (-7)), ("NDT", d (-7)), ("AST", z (-8)), ("ADT", d (-8)), ("CLT", z (-8)),
    ("CLST", d (-8)), ("EST", z (-10)), ("EDT", d (-10)), ("CST", z (-12)), ("CDT", d (-12)),
    ("MST", z (-14)), ("MDT", d (-14)), ("PST", z (-16)), ("PDT", d (-16)), ("AKST", z (-18)),
    ("AKDT", d (-18)), ("HST", z (-20)), ("HAST", z (-20)), ("HADT", d (-20)), ("SST", z (-24)),
    ("WAT", z 2), ("CET", z 2), ("CEST", d 2), ("MET", z 2), ("MEZ", z 2), ("MEST", d 2),
    ("MESZ", d 2), ("EET", z 4), ("EEST", d 4), ("CAT", z 4), ("SAST", z 4), ("EAT", z 6),
    ("MSK", z 6), ("MSD", d 6), ("IST", z 11), ("SGT", z 16), ("KST", z 18), ("JST", z 18),
    ("GST", z 20), ("NZST", z 24), ("NZDT", d 24)]

def letterZone? (c : Char) : Option Word :=
  let hour (n : Int) : Option Word := some (.zone (3600 * n))
  if c == 'J' then some .letterJ
  else if c == 'T' then some .letterT
  else if c == 'Z' then hour 0
  else if 'A' ≤ c && c ≤ 'I' then hour (c.toNat - 64)
  else if 'K' ≤ c && c ≤ 'M' then hour (c.toNat - 65)
  else if 'N' ≤ c && c ≤ 'Y' then hour (77 - c.toNat)
  else none

/-- A zone by its name; `here` is the name of the local one. -/
def zone? (here name : Octets) : Option Word :=
  if ["GMT", "UT", "UTC"].any fun u => u.toList == name then some (.zone 0)
  else if here == name then some .localZone
  else (zones.find? fun e => e.1.toList == name).map (·.2)

def find? (table : List (String × Word)) (name : Octets) : Option Word :=
  (table.find? fun e => e.1.toList == name).map (·.2)

/-- A month or a day of the week. Three letters are enough. -/
def named? (name : Octets) : Option Word :=
  let short := name.length == 3 || (name.length == 4 && name.getLast? == some '.')
  let fits (full : String) : Bool :=
    if short then full.toList.take 3 == name.take 3 else full.toList == name
  ((monthNames.find? fun e => fits e.1).map fun e => .month e.2) <|>
    ((dayNames.find? fun e => fits e.1).map fun e => .weekday e.2)

/-- What letters stand for. A unit may be in the plural. -/
def ofLetters (here letters : Octets) : Word :=
  let name := letters.map Char.toUpper
  let singular := if name.getLast? == some 'S' then find? units name.dropLast else none
  let letter := if name.length == 1 then letterZone? (name.headD ' ') else none
  let bare := name.filter (· != '.')
  let found := find? halves name <|> named? name <|> zone? here name <|>
    (if name == "DST".toList then some .summer else none) <|> find? units name <|> singular <|>
    find? relatives name <|> letter <|> (if bare.length < name.length then zone? here bare else none)
  found.getD .unknown

def isBlank (c : Char) : Bool := c == ' ' || ('\t' ≤ c && c ≤ '\r')

def maxValue : Int := Int.pow 2 63 - 1

/-- The value of decimals, in nanoseconds; of a number below zero what is left over counts as one
more. -/
def nanosOf (negative : Bool) (decimals : Octets) : Int :=
  let digit (n : Nat) : Int := ((decimals.getD n '0').toNat : Int) - 48
  let value := (List.range 9).foldl (fun v n => 10 * v + digit n) 0
  if negative && (decimals.drop 9).any (· != '0') then value + 1 else value

def ofDigits (sign : Option Char) (text : Octets) : Word × Octets :=
  let digits := text.takeWhile Char.isDigit
  let negative := sign == some '-'
  let size : Int := digits.foldl (fun n c => 10 * n + ((c.toNat : Int) - 48)) 0
  let value := if negative then -size else size
  let rest := text.drop digits.length
  if maxValue < value || value < -maxValue - 1 then (.unknown, rest)
  else
    match rest with
    | p :: d :: more =>
      if (p == '.' || p == ',') && d.isDigit then
        let decimals := (d :: more).takeWhile Char.isDigit
        let nanos := nanosOf negative decimals
        (.decimal sign.isSome (value * Int.pow 10 9 + (if negative then -nanos else nanos)),
          (d :: more).drop decimals.length)
      else (of digits value, rest)
    | _ => (of digits value, rest)
where
  of (digits : Octets) (value : Int) : Word :=
    let n : Numeral := ⟨value, digits.length, sign == some '-'⟩
    if sign.isSome then .signed n else .number n

def afterRemark : (depth : Nat) → Octets → Octets
  | _, [] => []
  | depth, '(' :: cs => afterRemark (depth + 1) cs
  | depth, ')' :: cs => if depth ≤ 1 then cs else afterRemark (depth - 1) cs
  | depth, _ :: cs => afterRemark depth cs

def maxLetters : Nat := 19

/-- The words of a text. A step takes at least one character; a sign without a number, blanks and
remarks are passed over. -/
def split (here : Octets) : (steps : Nat) → Octets → List Word
  | 0, _ => []
  | _, [] => []
  | steps + 1, c :: cs =>
    if isBlank c then split here steps cs
    else if c == '(' then split here steps (afterRemark 1 cs)
    else if c.isDigit then
      let (w, rest) := ofDigits none (c :: cs)
      w :: split here steps rest
    else if c == '-' || c == '+' then
      let after := cs.dropWhile isBlank
      if (after.head?.map Char.isDigit).getD false then
        let (w, rest) := ofDigits (some c) after
        w :: split here steps rest
      else split here steps after
    else if c.isAlpha then
      let isPart (c : Char) : Bool := c.isAlpha || c == '.'
      let letters := (c :: cs).takeWhile isPart
      ofLetters here (letters.take maxLetters) :: split here steps ((c :: cs).dropWhile isPart)
    else .mark c :: split here steps cs

def ofText (here text : Octets) : List Word := split here (text.length + 1) text

end Word
end LintRelay.Date

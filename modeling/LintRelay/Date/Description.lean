import LintRelay.Date.Calendar
import LintRelay.Date.Word
import LintRelay.Date.Zone
/-! Points in time as people describe them. A description is a row of items, each of which gives a
date, a time of day, a day of the week, a zone, or how far to go from there. -/
namespace LintRelay.Date

def nanosOfSecond : Int := Int.pow 10 9

structure Shift where
  years : Int := 0
  months : Int := 0
  days : Int := 0
  hours : Int := 0
  minutes : Int := 0
  seconds : Int := 0
  nanos : Int := 0
  deriving DecidableEq, Repr

namespace Shift

def of (s : Span) (n : Int) : Shift :=
  match s with
  | .years => { years := n }
  | .months => { months := n }
  | .days => { days := n }
  | .hours => { hours := n }
  | .minutes => { minutes := n }
  | .seconds => { seconds := n }

def add (a b : Shift) (sign : Int) : Shift where
  years := a.years + sign * b.years
  months := a.months + sign * b.months
  days := a.days + sign * b.days
  hours := a.hours + sign * b.hours
  minutes := a.minutes + sign * b.minutes
  seconds := a.seconds + sign * b.seconds
  nanos := a.nanos + sign * b.nanos

end Shift

/-- What the items read so far say, and how many of each kind there were. -/
structure Reading where
  year : Numeral
  month : Int
  day : Int
  hour : Int
  minute : Int
  second : Int
  nanos : Int
  /-- The half of the day that the hour is counted in. -/
  afternoon : Option Bool := none
  ordinal : Int := 0
  weekday : Int := 0
  /-- How far the clocks of a zone that was named are ahead. -/
  zone : Option Int := none
  shift : Shift := {}
  dates : Nat := 0
  days : Nat := 0
  times : Nat := 0
  zones : Nat := 0
  summers : Nat := 0
  isShifted : Bool := false
  deriving DecidableEq, Repr

namespace Reading

def start (zone : Zone) (now : Int) : Reading :=
  let m := Moment.ofSeconds (now.fdiv nanosOfSecond + zone.offset)
  { year := ⟨m.year, 0, false⟩, month := m.month, day := m.day, hour := m.hour, minute := m.minute,
    second := m.second, nanos := now.fmod nanosOfSecond }

def withTime (r : Reading) (hour minute : Int) (nanos : Int := 0)
    (afternoon : Option Bool := none) : Reading :=
  { r with
    hour, minute, afternoon,
    second := nanos.fdiv nanosOfSecond, nanos := nanos.fmod nanosOfSecond, times := r.times + 1 }

def withDate (r : Reading) (year : Numeral) (month day : Int) : Reading :=
  { r with year, month, day, dates := r.dates + 1 }

def withDay (r : Reading) (ordinal weekday : Int) : Reading :=
  { r with ordinal, weekday, days := r.days + 1 }

def withZone (r : Reading) (zone : Int) : Reading :=
  { r with zone := some zone, zones := r.zones + 1 }

def withShift (r : Reading) (s : Shift) (sign : Int := 1) : Reading :=
  { r with shift := r.shift.add s sign, isShifted := true }

/-- A number by itself: a year after a date without one, a date of more than four digits, or a time
of day. -/
def withNumber (r : Reading) (n : Numeral) : Reading :=
  if 0 < r.dates && r.year.digits == 0 && !r.isShifted && (0 < r.times || 2 < n.digits) then
    { r with year := n }
  else if 4 < n.digits then
    r.withDate ⟨n.value / 10000, n.digits - 4, false⟩ (n.value / 100 % 100) (n.value % 100)
  else if n.digits ≤ 2 then r.withTime n.value 0
  else r.withTime (n.value / 100) (n.value % 100)

def offset? (n : Numeral) (minutes : Option Int) : Option Int :=
  let total :=
    match minutes with
    | some m => 60 * n.value + (if n.negative then -m else m)
    | none =>
      let v := if n.digits ≤ 2 then 100 * n.value else n.value
      60 * v.tdiv 100 + v.tmod 100
  if -1440 ≤ total && total ≤ 1440 then some (60 * total) else none

def takeOffset? (n : Numeral) : List Word → Option (Int × List Word)
  | .mark ':' :: .number m :: ws => (offset? n (some m.value)).map (·, ws)
  | .mark ':' :: _ => none
  | ws => (offset? n none).map (·, ws)

def negated (n : Numeral) : Numeral := { n with value := -n.value }

def takeShift (r : Reading) (s : Shift) : List Word → Reading × List Word
  | .ago sign :: ws => (r.withShift s sign, ws)
  | ws => (r.withShift s, ws)

/-- What may follow a time of day: a half of the day if `mayHalve`, or an offset. -/
def takeTime (r : Reading) (hour minute nanos : Int) (mayHalve : Bool) :
    List Word → Option (Reading × List Word)
  | .half afternoon :: ws =>
    if mayHalve then some (r.withTime hour minute nanos (some afternoon), ws) else none
  | .signed n :: ws => do
    let (zone, ws) ← takeOffset? n ws
    return ((r.withTime hour minute nanos).withZone zone, ws)
  | ws => some (r.withTime hour minute nanos, ws)

def takeMinutes (r : Reading) (hour : Int) (mayHalve : Bool) :
    List Word → Option (Reading × List Word)
  | .number m :: .mark ':' :: .number s :: ws =>
    takeTime r hour m.value (s.value * nanosOfSecond) mayHalve ws
  | .number m :: .mark ':' :: .decimal false s :: ws => takeTime r hour m.value s mayHalve ws
  | .number _ :: .mark ':' :: _ => none
  | .number m :: ws => takeTime r hour m.value 0 mayHalve ws
  | _ => none

/-- The time of day that has to follow a date and the letter between them. -/
def takeAfterLetter (r : Reading) : List Word → Option (Reading × List Word)
  | .number h :: .mark ':' :: ws => takeMinutes r h.value false ws
  | .number h :: .signed z :: ws => takeTime r h.value 0 0 false (.signed z :: ws)
  | _ => none

def takeItem (r : Reading) : List Word → Option (Reading × List Word)
  | .number h :: .half afternoon :: ws => some (r.withTime h.value 0 0 (some afternoon), ws)
  | .number h :: .mark ':' :: ws => takeMinutes r h.value true ws
  | .number y :: .signed m :: .signed d :: .letterT :: ws =>
    takeAfterLetter (r.withDate y (-m.value) (-d.value)) ws
  | .number y :: .signed m :: .signed d :: ws => some (r.withDate y (-m.value) (-d.value), ws)
  | .number n :: .signed k :: .unit s count :: ws =>
    some ((r.withNumber n).withShift (.of s (k.value * count)), ws)
  | .number h :: .signed z :: ws => takeTime r h.value 0 0 false (.signed z :: ws)
  | .number a :: .mark '/' :: .number b :: .mark '/' :: .number c :: ws =>
    some (if 4 ≤ a.digits then r.withDate a b.value c.value else r.withDate c a.value b.value, ws)
  | .number _ :: .mark '/' :: .number _ :: .mark '/' :: _ => none
  | .number m :: .mark '/' :: .number d :: ws => some (r.withDate r.year m.value d.value, ws)
  | .number d :: .month m :: .signed y :: ws => some (r.withDate (negated y) m d.value, ws)
  | .number d :: .month m :: .number y :: ws => some (r.withDate y m d.value, ws)
  | .number d :: .month m :: ws => some (r.withDate r.year m d.value, ws)
  | .number n :: .weekday d :: ws => some (r.withDay n.value d, ws)
  | .number n :: .unit s count :: ws => some (r.takeShift (.of s (n.value * count)) ws)
  | .number n :: ws => some (r.withNumber n, ws)
  | .signed n :: .unit s count :: ws => some (r.takeShift (.of s (n.value * count)) ws)
  | .decimal _ t :: .unit .seconds _ :: ws =>
    some (r.takeShift { seconds := t.fdiv nanosOfSecond, nanos := t.fmod nanosOfSecond } ws)
  | .ordinal n :: .weekday d :: ws => some (r.withDay n d, ws)
  | .ordinal n :: .unit s count :: ws => some (r.takeShift (.of s (n * count)) ws)
  | .weekday d :: .mark ',' :: ws => some (r.withDay 0 d, ws)
  | .weekday d :: ws => some (r.withDay 0 d, ws)
  | .month m :: .number d :: .mark ',' :: .number y :: ws => some (r.withDate y m d.value, ws)
  | .month _ :: .number _ :: .mark ',' :: _ => none
  | .month m :: .number d :: ws => some (r.withDate r.year m d.value, ws)
  | .month m :: .signed d :: .signed y :: ws => some (r.withDate (negated y) m (-d.value), ws)
  | .unit s count :: ws => some (r.takeShift (.of s count) ws)
  | .dayShift n :: ws => some (r.withShift { days := n }, ws)
  | .localZone :: .summer :: ws =>
    some ({ r with zones := r.zones + 1, summers := r.summers + 1 }, ws)
  | .localZone :: ws => some ({ r with zones := r.zones + 1 }, ws)
  | .letterJ :: ws => some ({ r with zones := r.zones + 1 }, ws)
  | .zone z :: .signed k :: .unit s count :: ws =>
    some ((r.withZone z).withShift (.of s (k.value * count)), ws)
  | .zone z :: .signed k :: ws => do
    let (offset, ws) ← takeOffset? k ws
    return (r.withZone (z + offset), ws)
  | .zone z :: .summer :: ws => some (r.withZone (z + 3600), ws)
  | .zone z :: ws => some (r.withZone z, ws)
  | .letterT :: .signed k :: .unit s count :: ws =>
    some ((r.withZone (-7 * 3600)).withShift (.of s (k.value * count)), ws)
  | .letterT :: ws => some (r.withZone (-7 * 3600), ws)
  | .summerZone z :: ws => some (r.withZone (z + 3600), ws)
  | _ => none

/-- Reads all items. Each takes at least one word. -/
def takeItems (r : Reading) : (steps : Nat) → List Word → Option Reading
  | _, [] => some r
  | 0, _ :: _ => none
  | steps + 1, ws => do
    let (r, ws) ← takeItem r ws
    takeItems r steps ws

def hour? (r : Reading) : Option Int :=
  match r.afternoon with
  | none => if 0 ≤ r.hour && r.hour < 24 then some r.hour else none
  | some afternoon =>
    if 0 < r.hour && r.hour ≤ 12 then some (r.hour % 12 + (if afternoon then 12 else 0)) else none

/-- The year in full: of two digits, those below 69 are of this century. -/
def fullYear (r : Reading) : Int :=
  let y := r.year.value
  if 0 ≤ y && r.year.digits == 2 then (if y < 69 then y + 2000 else y + 1900) else y.natAbs

/-- Whether no kind of item stands there twice. The counts are compared bit by bit. -/
def isSingle (r : Reading) : Bool := (r.times ||| r.dates ||| r.days ||| r.summers ||| r.zones) ≤ 1

def fitsWord (n : Int) : Bool := -Int.pow 2 31 ≤ n && n < Int.pow 2 31

/-- How many days lie between a day and the one that an ordinal and a name stand for. -/
def daysAhead (r : Reading) (m : Moment) : Int :=
  let weeks := r.ordinal - (if 0 < r.ordinal && m.weekday != r.weekday then 1 else 0)
  7 * weeks + (r.weekday - m.weekday + 7) % 7

/-- The point in time, in nanoseconds. A date that no calendar has is none. -/
def nanos? (r : Reading) (zone : Zone) : Option Int := do
  guard r.isSingle
  guard (fitsWord (r.fullYear - 1900) && fitsWord (r.month - 1) && fitsWord r.day)
  let isTimed := 0 < r.times || (r.isShifted && r.dates == 0 && r.days == 0)
  let hour ← if isTimed then r.hour? else some 0
  let given : Moment :=
    if isTimed then
      ⟨r.fullYear, r.month, r.day, hour, r.minute.bmod (Nat.pow 2 32), r.second.bmod (Nat.pow 2 32)⟩
    else ⟨r.fullYear, r.month, r.day, 0, 0, 0⟩
  guard (given.normal == given && given.isTold)
  let onDay ←
    if 0 < r.days && r.dates == 0 then
      let day := given.day + r.daysAhead given
      if fitsWord day then some { given with day }.normal else none
    else some given
  guard onDay.isTold
  let shifted : Moment :=
    { onDay with
      year := onDay.year + r.shift.years
      month := onDay.month + r.shift.months
      day := onDay.day + r.shift.days }
  guard (fitsWord (shifted.year - 1900) && fitsWord (shifted.month - 1) && fitsWord shifted.day)
  guard shifted.isTold
  let seconds := shifted.seconds - r.zone.getD zone.offset + 3600 * r.shift.hours + 60 * r.shift.minutes +
    r.shift.seconds
  let total := seconds * nanosOfSecond + (if isTimed then r.nanos else 0) + r.shift.nanos
  guard (-Int.pow 2 63 ≤ total.fdiv nanosOfSecond && total.fdiv nanosOfSecond < Int.pow 2 63)
  return total

end Reading

/-- The zone that a text names between quotes, and what follows it. A backslash protects a quote or
another backslash. -/
def takeZone (name : Octets) : Octets → Option (Zone × Octets)
  | '"' :: cs => some (.ofSetting name.reverse, cs)
  | '\\' :: '\\' :: cs => takeZone ('\\' :: name) cs
  | '\\' :: '"' :: cs => takeZone ('"' :: name) cs
  | '\\' :: _ => none
  | c :: cs => takeZone (c :: name) cs
  | [] => none

/-- The point in time that a text describes, in nanoseconds, at a given time. A text may name a zone
first, and after an at sign stands a number of seconds. Nothing at all is the beginning of the day. -/
def describedTime? (zone : Zone) (now : Int) (text : Octets) : Option Int :=
  let text := text.dropWhile Word.isBlank
  let (zone, text) :=
    match text with
    | 'T' :: 'Z' :: '=' :: '"' :: cs =>
      match takeZone [] cs with
      | some (zone, rest) => (zone, rest.dropWhile Word.isBlank)
      | none => (zone, text)
    | _ => (zone, text)
  let words := Word.ofText zone.name (if text.isEmpty then ['0'] else text)
  match words with
  | [.mark '@', .number n] => some (n.value * nanosOfSecond)
  | [.mark '@', .signed n] => some (n.value * nanosOfSecond)
  | [.mark '@', .decimal _ t] => some t
  | _ => do
    let reading ← (Reading.start zone now).takeItems words.length words
    reading.nanos? zone

def twoDigits? : Octets → Option Int
  | [a, b] => if a.isDigit && b.isDigit then some (10 * a.toNat + b.toNat - 528) else none
  | _ => none

/-- The point in time that digits stand for: month, day, hour and minute, before them perhaps a year
of two or four digits, and after a point the second, of which there may be sixty. -/
def stampedTime? (zone : Zone) (now : Int) (text : Octets) : Option Int := do
  let digits := text.takeWhile (· != '.')
  let second ←
    match text.drop digits.length with
    | [] => some 0
    | _ :: s => twoDigits? s
  let pair (n : Nat) : Option Int := twoDigits? ((digits.drop (2 * n)).take 2)
  let (year, first) ←
    match digits.length with
    | 8 => some ((Moment.ofSeconds (now.fdiv nanosOfSecond + zone.offset)).year, 0)
    | 10 => (pair 0).map fun y => (if y < 69 then y + 2000 else y + 1900, 1)
    | 12 => (pair 0).bind fun century => (pair 1).map fun y => (100 * century + y, 2)
    | _ => none
  let at60 := second == 60
  let given : Moment :=
    ⟨year, ← pair first, ← pair (first + 1), ← pair (first + 2), ← pair (first + 3),
      if at60 then 59 else second⟩
  guard (given.normal == given)
  return (given.seconds - zone.offset + (if at60 then 1 else 0)) * nanosOfSecond

example : describedTime? .utc 0 "1 May 2020 10:00 +0200".toList = some (1588320000 * 10 ^ 9) := by
  decide +kernel

example : describedTime? .utc 0 "@1.5".toList = some (15 * 10 ^ 8) := by decide +kernel

example : stampedTime? .utc 0 "202002291200.30".toList = some (1582977630 * 10 ^ 9) := by
  decide +kernel

end LintRelay.Date

/-! The calendar: days are counted from the first day of 1970, and years, months and days of the month
are told from that count and back. -/
namespace LintRelay.Date

/-- A point in time as a calendar and a clock tell it. The parts may lie outside their ranges, and
then stand for what lies so far on or back. -/
structure Moment where
  year : Int
  month : Int
  day : Int
  hour : Int := 0
  minute : Int := 0
  second : Int := 0
  deriving DecidableEq, Repr

/-- The count of a day. Years begin in March here, so that a leap day comes last, and repeat after
four hundred years. -/
def daysOf (year month day : Int) : Int :=
  let months := 12 * year + month - 3
  let y := months.fdiv 12
  let m := months.fmod 12
  let cycle := y.fdiv 400
  let inCycle := y.fmod 400
  cycle * 146097 + 365 * inCycle + inCycle / 4 - inCycle / 100 + (153 * m + 2) / 5 + day - 1 - 719468

def dateOf (days : Int) : Int × Int × Int :=
  let days := days + 719468
  let cycle := days.fdiv 146097
  let inCycle := days.fmod 146097
  let y := (inCycle - inCycle / 1460 + inCycle / 36524 - inCycle / 146096) / 365
  let inYear := inCycle - (365 * y + y / 4 - y / 100)
  let m := (5 * inYear + 2) / 153
  let day := inYear - (153 * m + 2) / 5 + 1
  let months := 12 * (400 * cycle + y) + m + 2
  (months.fdiv 12, months.fmod 12 + 1, day)

def secondsOfDay : Int := 86400

def Moment.seconds (m : Moment) : Int :=
  daysOf m.year m.month m.day * secondsOfDay + 3600 * m.hour + 60 * m.minute + m.second

def Moment.ofSeconds (s : Int) : Moment :=
  let (year, month, day) := dateOf (s.fdiv secondsOfDay)
  let rest := s.fmod secondsOfDay
  ⟨year, month, day, rest / 3600, rest / 60 % 60, rest % 60⟩

def Moment.normal (m : Moment) : Moment := .ofSeconds m.seconds

def Moment.weekday (m : Moment) : Int := (daysOf m.year m.month m.day + 4).fmod 7

/-- Whether a year is one that the system can tell. -/
def Moment.isTold (m : Moment) : Bool :=
  -Int.pow 2 31 ≤ m.normal.year - 1900 && m.normal.year - 1900 < Int.pow 2 31

example : (Moment.mk 2000 2 29 12 30 15).seconds = 951827415 := by decide

example : Moment.ofSeconds (-1) = ⟨1969, 12, 31, 23, 59, 59⟩ := by decide

end LintRelay.Date

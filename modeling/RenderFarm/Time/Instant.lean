import RenderFarm.Text

/-! Instants with nanoseconds, and the calendar time that a clock with a given offset from UTC shows
at them. Dates are those of the proleptic Gregorian calendar, and their day numbers are counted from
1 January of the year 0. A leap second is the sixtieth second of a minute; it counts with the second
before it. -/
namespace RenderFarm

structure Date where
  year : Int
  month : Nat
  day : Nat
  deriving DecidableEq

namespace Date

def isLeapYear (y : Int) : Bool := y % 4 = 0 && (y % 100 != 0 || y % 400 = 0)

def monthLengths (leap : Bool) : List Nat :=
  [31, if leap then 29 else 28, 31, 30, 31, 30, 31, 31, 30, 31, 30, 31]

def isValid (d : Date) : Bool :=
  1 ≤ d.month && d.month ≤ 12 && 1 ≤ d.day &&
    d.day ≤ (monthLengths (isLeapYear d.year)).getD (d.month - 1) 0

def daysBeforeYear (y : Int) : Int := 365 * y + (y + 3) / 4 - (y + 99) / 100 + (y + 399) / 400

def daysBeforeMonth (leap : Bool) (month : Nat) : Nat :=
  ((monthLengths leap).take (month - 1)).foldr (· + ·) 0

def dayNumber (d : Date) : Int :=
  daysBeforeYear d.year + daysBeforeMonth (isLeapYear d.year) d.month + ((d.day : Int) - 1)

/-- The year of a day number: the one by mean length, or its neighbour. -/
def yearOf (n : Int) : Int :=
  let y := n * 400 / 146097
  if n < daysBeforeYear y then y - 1 else if daysBeforeYear (y + 1) ≤ n then y + 1 else y

/-- The part that a position falls into, among parts of the given lengths, and the position in it,
both counted from zero. -/
def locate : List Nat → Nat → Nat × Nat
  | [], n => (0, n)
  | l :: ls, n =>
    if n < l then (0, n)
    else
      let (i, m) := locate ls (n - l)
      (i + 1, m)

def ofDayNumber (n : Int) : Date :=
  let y := yearOf n
  let (m, d) := locate (monthLengths (isLeapYear y)) (n - daysBeforeYear y).toNat
  ⟨y, m + 1, d + 1⟩

def unixEpoch : Int := 719528

end Date

/-- An instant: whole seconds since the start of 1970 in UTC, and nanoseconds, which reach a second
further in a leap second. -/
structure Instant where
  seconds : Int
  nanos : Nat
  nanos_lt : nanos < 2000000000
  leap : 1000000000 ≤ nanos → seconds % 60 = 59
  deriving DecidableEq

/-- What a clock with a calendar shows; the seconds reach sixty in a leap second. -/
structure ClockTime where
  date : Date
  hour : Nat
  minute : Nat
  second : Nat
  nanos : Nat
  deriving DecidableEq

/-- Local time: the seconds that clocks are ahead of UTC at each instant. -/
abbrev Zone := Instant → Int

namespace Zone

def steady (seconds : Int) : Zone := fun _ => seconds

def fixed (minutes : Int) : Zone := steady (60 * minutes)

def utc : Zone := steady 0

end Zone

namespace Instant

def ofSeconds (seconds : Int) : Instant := ⟨seconds, 0, by decide, fun h => absurd h (by decide)⟩

/-- What a clock shows that is the given number of seconds ahead of UTC. It shows a leap second as
the second that follows, which is the sixtieth of a minute unless the clock is ahead by a part of a
minute. -/
def clockTime (t : Instant) (ahead : Int) : ClockTime :=
  let here := t.seconds + ahead
  let s := (here % 86400).toNat
  { date := .ofDayNumber (here / 86400 + Date.unixEpoch)
    hour := s / 3600
    minute := s / 60 % 60
    second := s % 60 + t.nanos / 1000000000
    nanos := t.nanos % 1000000000 }

end Instant

namespace ClockTime

def isValid (c : ClockTime) : Bool :=
  c.date.isValid && c.hour < 24 && c.minute < 60 && c.second ≤ 60 && c.nanos < 1000000000

/-- Seconds since the start of 1970 on the clock itself, a leap second counting with the one before
it. -/
def seconds (c : ClockTime) : Int :=
  (c.date.dayNumber - Date.unixEpoch) * 86400 + c.hour * 3600 + c.minute * 60 + min c.second 59

/-- The instant at which a clock shows this time that is the given number of minutes ahead of UTC,
if it is a time at all. -/
def instant? (c : ClockTime) (minutes : Int) : Option Instant :=
  if h : c.second ≤ 60 ∧ c.nanos < 1000000000 ∧ c.isValid then
    some
      { seconds := c.seconds - 60 * minutes
        nanos := c.nanos + if c.second = 60 then 1000000000 else 0
        nanos_lt := by split <;> omega
        leap := by
          intro hl
          split at hl
          · rename_i h60
            simp only [seconds, h60]
            omega
          · omega }
  else none

/-- The year with four digits; outside 0..9999 it has a sign. -/
def yearText (y : Int) : List Char :=
  if 0 ≤ y ∧ y ≤ 9999 then Text.paddedDecimal 4 y.toNat
  else (if y < 0 then '-' else '+') :: Text.paddedDecimal 4 y.natAbs

def twoDigits (n : Nat) : List Char := Text.paddedDecimal 2 n

def dateText (d : Date) : List Char :=
  yearText d.year ++ '-' :: twoDigits d.month ++ '-' :: twoDigits d.day

/-- Date and time in a form for file names, which sorts as the times do. -/
def stamp (c : ClockTime) : List Char :=
  dateText c.date ++ '_' :: twoDigits c.hour ++ twoDigits c.minute ++ twoDigits c.second

end ClockTime

def Instant.stamp (zone : Zone) (t : Instant) : String :=
  String.ofList (t.clockTime (zone t)).stamp
end RenderFarm

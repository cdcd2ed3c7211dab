import RenderFarm.Time.Instant

/-! Times in the format of RFC 3339. They are written in UTC with as few groups of three fraction
digits as are exact. `read?` accepts the format itself, with a space for the `T`, letters in either
case and a minus sign for the hyphen of an offset; further fraction digits than nine are dropped.
`readLenient?` accepts in addition years with a sign, single digits, and blanks around the parts:
documents that were written for years outside 0..9999 need it. -/
namespace RenderFarm
namespace Rfc3339

def fractionText (nanos : Nat) : List Char :=
  if nanos = 0 then []
  else if nanos % 1000000 = 0 then '.' :: Text.paddedDecimal 3 (nanos / 1000000)
  else if nanos % 1000 = 0 then '.' :: Text.paddedDecimal 6 (nanos / 1000)
  else '.' :: Text.paddedDecimal 9 nanos

def utcText (c : ClockTime) : List Char :=
  ClockTime.dateText c.date ++ 'T' :: ClockTime.twoDigits c.hour ++
    ':' :: ClockTime.twoDigits c.minute ++ ':' :: ClockTime.twoDigits c.second ++
    fractionText c.nanos ++ ['Z']

end Rfc3339

def Instant.toRfc3339 (t : Instant) : String := String.ofList (Rfc3339.utcText (t.clockTime 0))

namespace Rfc3339

/-- The number written by exactly `n` digits, and what follows them. -/
def digits? (n : Nat) (s : List Char) : Option (Nat × List Char) :=
  let ds := s.take n
  if ds.length = n ∧ ds.all Char.isDigit then some (Nat.ofDigitChars 10 ds 0, s.drop n) else none

def after? (c : Char) : List Char → Option (List Char)
  | d :: r => if d = c then some r else none
  | [] => none

def afterMark? : List Char → Option (List Char)
  | c :: r => if c = 'T' ∨ c = 't' ∨ c = ' ' then some r else none
  | [] => none

/-- Nanoseconds from the digits after the point, and what follows them. -/
def fraction? : List Char → Option (Nat × List Char)
  | '.' :: r =>
    match r.takeWhile Char.isDigit with
    | [] => none
    | ds =>
      let nine := ds.take 9
      some (Nat.ofDigitChars 10 nine 0 * Nat.pow 10 (9 - nine.length), r.dropWhile Char.isDigit)
  | r => some (0, r)

def sign? : List Char → Option (Int × List Char)
  | c :: r =>
    if c = '+' then some (1, r) else if c = '-' ∨ c = '\u2212' then some (-1, r) else none
  | [] => none

/-- The minutes that a clock is ahead of UTC, at the end of a text; `between` drops what stands
between hours and minutes. -/
def offset? (between : List Char → Option (List Char)) (s : List Char) :
    Option (Int × List Char) :=
  match s with
  | 'Z' :: r => some (0, r)
  | 'z' :: r => some (0, r)
  | s => do
    let (sign, r) ← sign? s
    let (hours, r) ← digits? 2 r
    let r ← between r
    let (minutes, r) ← digits? 2 r
    if hours < 24 ∧ minutes < 60 then some (sign * (60 * hours + minutes), r) else none

/-- The instant that a text in the format names. -/
def read? (text : String) : Option Instant := do
  let (year, r) ← digits? 4 text.toList
  let (month, r) ← digits? 2 (← after? '-' r)
  let (day, r) ← digits? 2 (← after? '-' r)
  let (hour, r) ← digits? 2 (← afterMark? r)
  let (minute, r) ← digits? 2 (← after? ':' r)
  let (second, r) ← digits? 2 (← after? ':' r)
  let (nanos, r) ← fraction? r
  let (offset, r) ← offset? (after? ':') r
  if r.isEmpty then ClockTime.instant? ⟨⟨year, month, day⟩, hour, minute, second, nanos⟩ offset
  else none

def skipBlank (s : List Char) : List Char := s.dropWhile Text.isBlank

/-- The number written by one to `n` digits, after blanks, and what follows them. -/
def upToDigits? (n : Nat) (s : List Char) : Option (Nat × List Char) :=
  let s := skipBlank s
  match (s.take n).takeWhile Char.isDigit with
  | [] => none
  | ds => some (Nat.ofDigitChars 10 ds 0, s.drop ds.length)

/-- A year: up to four digits, or any number of them after a sign. -/
def lenientYear? (s : List Char) : Option (Int × List Char) :=
  match skipBlank s with
  | '-' :: r => signed (-1) r
  | '+' :: r => signed 1 r
  | s => (upToDigits? 4 s).map fun (n, r) => (n, r)
where
  signed (sign : Int) (r : List Char) : Option (Int × List Char) :=
    match r.takeWhile Char.isDigit with
    | [] => none
    | ds => some (sign * Nat.ofDigitChars 10 ds 0, r.dropWhile Char.isDigit)

def lenientOffset? (s : List Char) : Option (Int × List Char) :=
  if s.length ≥ 3 ∧ (s.take 3).map Char.toUpper = ['U', 'T', 'C'] then some (0, s.drop 3)
  else offset? (fun r => some (r.dropWhile fun c => c == ':' || Text.isBlank c)) s

/-- Whether a year is among those that the calendar of the farm's documents reaches. -/
def yearInRange (y : Int) : Bool := -262143 ≤ y && y ≤ 262142

/-- The instant that a text in the format or its lenient form names. -/
def readLenient? (text : String) : Option Instant := do
  let (year, r) ← lenientYear? text.toList
  let (month, r) ← upToDigits? 2 (← after? '-' (skipBlank r))
  let (day, r) ← upToDigits? 2 (← after? '-' (skipBlank r))
  let (hour, r) ← upToDigits? 2 (← afterMark? r)
  let (minute, r) ← upToDigits? 2 (← after? ':' (skipBlank r))
  let (second, r) ← upToDigits? 2 (← after? ':' (skipBlank r))
  let (nanos, r) ← fraction? r
  let (offset, r) ← lenientOffset? (skipBlank r)
  if (skipBlank r).isEmpty ∧ yearInRange year then do
    let t ← ClockTime.instant? ⟨⟨year, month, day⟩, hour, minute, second, nanos⟩ offset
    if yearInRange (t.clockTime 0).date.year then some t else none
  else none

end Rfc3339
end RenderFarm

import RenderFarm.Datum
import RenderFarm.Time.Rfc3339

/-! Numbers, dates and times of TOML texts. Underscores may stand between digits. Integers have 64
bits and may be written in base sixteen, eight or two; of binary64 numbers, those too great for the
format are refused unless they are negative. Dates and times have no place in the documents of the
farm, and are read as a table with one entry under a name that no record uses. -/
namespace RenderFarm
namespace Toml

def date? (s : List Char) : Option (List Char) := do
  let (year, r) ← Rfc3339.digits? 4 s
  let (month, r) ← Rfc3339.digits? 2 (← Rfc3339.after? '-' r)
  let (day, r) ← Rfc3339.digits? 2 (← Rfc3339.after? '-' r)
  if Date.isValid ⟨year, month, day⟩ then some r else none

def secondFraction? : List Char → Option (List Char)
  | '.' :: c :: r => if c.isDigit then some (r.dropWhile Char.isDigit) else none
  | '.' :: [] => none
  | s => some s

def time? (s : List Char) : Option (List Char) := do
  let (hour, r) ← Rfc3339.digits? 2 s
  let (minute, r) ← Rfc3339.digits? 2 (← Rfc3339.after? ':' r)
  let (second, r) ← Rfc3339.digits? 2 (← Rfc3339.after? ':' r)
  if hour < 24 ∧ minute < 60 ∧ second ≤ 60 then secondFraction? r else none

/-- What follows an offset from UTC; there need not be one. -/
def offset? (s : List Char) : Option (List Char) :=
  match s with
  | [] => some []
  | c :: r =>
    if c = 'Z' ∨ c = 'z' then some r
    else if c = '+' ∨ c = '-' then do
      let (hour, r) ← Rfc3339.digits? 2 r
      let (minute, r) ← Rfc3339.digits? 2 (← Rfc3339.after? ':' r)
      if hour < 24 ∧ minute < 60 then some r else none
    else some s

def dateTime? (s : List Char) : Option (List Char) := do
  let r ← date? s
  match Rfc3339.afterMark? r >>= time? with
  | none => some r
  | some r => offset? r

def momentName : String := "$moment"

def moment? (s : List Char) : Option (Datum × List Char) :=
  (dateTime? s <|> time? s).map fun r =>
    (.table [(momentName, .text (String.ofList (s.take (s.length - r.length))))], r)

/-- Further digits of a number, without the underscores between them, and what follows. -/
def moreDigits (isDigit : Char → Bool) : List Char → List Char × List Char
  | '_' :: c :: r =>
    if isDigit c then
      let (ds, t) := moreDigits isDigit r
      (c :: ds, t)
    else ([], '_' :: c :: r)
  | c :: r =>
    if isDigit c then
      let (ds, t) := moreDigits isDigit r
      (c :: ds, t)
    else ([], c :: r)
  | [] => ([], [])

def digits? (isDigit : Char → Bool) : List Char → Option (List Char × List Char)
  | c :: r =>
    if isDigit c then
      let (ds, t) := moreDigits isDigit r
      some (c :: ds, t)
    else none
  | [] => none

def sign : List Char → Bool × List Char
  | '-' :: r => (true, r)
  | '+' :: r => (false, r)
  | s => (false, s)

def whole? : List Char → Option (List Char × List Char)
  | '0' :: r => some (['0'], r)
  | s => digits? Char.isDigit s

def integerDatum? (n : Int) : Option Datum :=
  if Int64.minValue.toInt ≤ n ∧ n ≤ Int64.maxValue.toInt then some (.int n) else none

def based? (base : Nat) (isDigit : Char → Bool) (s : List Char) : Option (Datum × List Char) := do
  let (ds, r) ← digits? isDigit s
  let vs ← ds.mapM Text.hexValue?
  let d ← integerDatum? (vs.foldl (fun (n v : Nat) => base * n + v) 0 : Nat)
  some (d, r)

def integer? (s : List Char) : Option (Datum × List Char) :=
  match s with
  | '0' :: 'x' :: r => based? 16 (fun c => (Text.hexValue? c).isSome) r
  | '0' :: 'o' :: r => based? 8 (fun c => '0' ≤ c && c ≤ '7') r
  | '0' :: 'b' :: r => based? 2 (fun c => c == '0' || c == '1') r
  | s => do
    let (negative, r) := sign s
    let (ds, r) ← whole? r
    let n : Int := Nat.ofDigitChars 10 ds 0
    let d ← integerDatum? (if negative then -n else n)
    some (d, r)

def fraction? : List Char → Option (List Char × List Char)
  | '.' :: r => digits? Char.isDigit r
  | s => some ([], s)

def exponent? (s : List Char) : Option (Option Int × List Char) :=
  match s with
  | [] => some (none, [])
  | c :: r =>
    if c = 'e' ∨ c = 'E' then do
      let (negative, r) := sign r
      let (ds, r) ← digits? Char.isDigit r
      let n : Int := Nat.ofDigitChars 10 ds 0
      some (some (if negative then -n else n), r)
    else some (none, s)

/-- A number that is infinite or none at all, after its sign, and what follows it. -/
def special? (negative : Bool) : List Char → Option (Datum × List Char)
  | 'i' :: 'n' :: 'f' :: r => some (.float (.infinite negative), r)
  | 'n' :: 'a' :: 'n' :: r => some (.float .nan, r)
  | _ => none

def float? (s : List Char) : Option (Datum × List Char) :=
  let (negative, r) := sign s
  match special? negative r with
  | some d => some d
  | none => do
    let (whole, r) ← whole? r
    let (places, r) ← fraction? r
    let (exponent, r) ← exponent? r
    if places.isEmpty ∧ exponent.isNone then none
    else
      let d : Decimal :=
        ⟨Nat.ofDigitChars 10 (whole ++ places) 0, exponent.getD 0 - places.length⟩
      let x := d.toBinary64 negative
      if x = .infinite false then none else some (.float x, r)

end Toml
end RenderFarm

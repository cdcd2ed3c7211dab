import RenderFarm.Datum

/-! Numbers in JSON texts. An integer is written in decimal; a finite binary64 number in its
shortest decimal form, positionally with at least one place if its leading exponent lies in
-5..15 and with a signed exponent otherwise. A literal without fraction and exponent reads as an
integer if it is in range, and any other as the nearest binary64 number. -/
namespace RenderFarm
namespace Json

def isPositional (top : Int) : Bool := decide (-5 ≤ top) && decide (top ≤ 15)

/-- Digits with the decimal point after the one of exponent 0, given the leading exponent. -/
def positional (digits : List Char) (top : Int) : List Char :=
  if top < 0 then ['0', '.'] ++ List.replicate (-top - 1).toNat '0' ++ digits
  else
    let whole := top.toNat + 1
    let padded := digits ++ List.replicate (whole + 1 - digits.length) '0'
    padded.take whole ++ '.' :: padded.drop whole

def withExponent (digits : List Char) (top : Int) : List Char :=
  digits.take 1 ++ (if digits.length ≤ 1 then [] else '.' :: digits.drop 1) ++
    ['e', if top < 0 then '-' else '+'] ++ Text.decimal top.natAbs

def decimalText (d : Decimal) : List Char :=
  let digits := Text.decimal d.digits
  if isPositional d.top then positional digits d.top else withExponent digits d.top

/-- The text of a binary64 number; one that is not finite has none. -/
def numberText? : Binary64 → Option (List Char)
  | .finite s m e h =>
    let body := if m = 0 then ['0', '.', '0'] else decimalText (Decimal.shortest m e h)
    some (if s then '-' :: body else body)
  | _ => none

def digitSpan (s : List Char) : List Char × List Char :=
  (s.takeWhile Char.isDigit, s.dropWhile Char.isDigit)

def fraction? : List Char → Option (Option (List Char) × List Char)
  | '.' :: r =>
    match digitSpan r with
    | ([], _) => none
    | (ds, r) => some (some ds, r)
  | r => some (none, r)

def exponent? : List Char → Option (Option Int × List Char)
  | c :: r =>
    if c = 'e' ∨ c = 'E' then
      let (negative, r) : Bool × List Char := match r with
        | '-' :: r => (true, r)
        | '+' :: r => (false, r)
        | r => (false, r)
      match digitSpan r with
      | ([], _) => none
      | (ds, r) =>
        let n : Int := Nat.ofDigitChars 10 ds 0
        some (some (if negative then -n else n), r)
    else some (none, c :: r)
  | [] => some (none, [])

/-- The digits before the point: a zero alone, or digits that start with another one. -/
def whole? (s : List Char) : Option (List Char × List Char) :=
  match s with
  | '0' :: r => some (['0'], r)
  | s =>
    match digitSpan s with
    | ([], _) => none
    | (ds, r) => some (ds, r)

/-- The number a literal stands for: an integer of 64 bits, signed or not, if it is written as one,
and otherwise the nearest finite binary64 number. -/
def literal? (negative : Bool) (whole : List Char) (fraction : Option (List Char))
    (exponent : Option Int) : Option Datum :=
  let n := Nat.ofDigitChars 10 whole 0
  if fraction.isNone ∧ exponent.isNone ∧ !negative ∧ n < UInt64.size then some (.int n)
  else if fraction.isNone ∧ exponent.isNone ∧ negative ∧ 0 < n ∧
      Int64.minValue.toInt ≤ -(n : Int) then some (.int (-n))
  else
    let places := fraction.getD []
    let d : Decimal :=
      ⟨Nat.ofDigitChars 10 (whole ++ places) 0, exponent.getD 0 - places.length⟩
    let x := d.toBinary64 negative
    if x.isFinite then some (.float x) else none

def number? (s : List Char) : Option (Datum × List Char) := do
  let (negative, r) : Bool × List Char := match s with
    | '-' :: r => (true, r)
    | r => (false, r)
  let (whole, r) ← whole? r
  let (fraction, r) ← fraction? r
  let (exponent, r) ← exponent? r
  let d ← literal? negative whole fraction exponent
  some (d, r)

end Json
end RenderFarm

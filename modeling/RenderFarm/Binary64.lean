import RenderFarm.Text

/-! Numbers of the binary64 format as values, and their decimal forms. A finite one is a signed
mantissa times a power of two, in the one form the format stores; a ratio or a decimal rounds to the
nearest of them, a tie going to the even mantissa. The shortest decimal form has as few digits as
read back to the number, and of those it is the nearest; a tie goes to the even digit. -/
namespace RenderFarm

/-- The stored pairs of mantissa and exponent: 53 bits, fewer only at the least exponent. -/
def CanonicalBits (mantissa : Nat) (exponent : Int) : Prop :=
  mantissa < Nat.pow 2 53 ∧ -1074 ≤ exponent ∧ exponent ≤ 971 ∧
    (Nat.pow 2 52 ≤ mantissa ∨ exponent = -1074)

instance (m : Nat) (e : Int) : Decidable (CanonicalBits m e) := by
  unfold CanonicalBits; infer_instance

/-- A binary64 number; `finite` stands for `±mantissa * 2 ^ exponent`. -/
inductive Binary64 where
  | finite (negative : Bool) (mantissa : Nat) (exponent : Int)
      (canonical : CanonicalBits mantissa exponent)
  | infinite (negative : Bool)
  | nan
  deriving DecidableEq

namespace Binary64

def isFinite : Binary64 → Bool
  | finite .. => true
  | _ => false

def zero (negative : Bool) : Binary64 := finite negative 0 (-1074) (by decide)

def neg : Binary64 → Binary64
  | finite s m e h => finite (!s) m e h
  | infinite s => infinite (!s)
  | nan => nan

def ofBits (negative : Bool) (m : Nat) (e : Int) : Binary64 :=
  if h : CanonicalBits m e then finite negative m e h else infinite negative

/-- The quotient rounded to an integer, a half going to the even neighbour. -/
def halfEven (num den : Nat) : Nat :=
  let q := num / den
  let r := num % den
  if 2 * r < den then q else if den < 2 * r then q + 1 else if q % 2 = 0 then q else q + 1

/-- The ratio `num / den / base ^ e` as numerator and denominator. -/
def scaled (base num den : Nat) (e : Int) : Nat × Nat :=
  if 0 ≤ e then (num, den * Nat.pow base e.toNat) else (num * Nat.pow base (-e).toNat, den)

/-- The exponent of the grid of numbers around a positive ratio. -/
def gridExponent (num den : Nat) : Int :=
  let k : Int := (Nat.log2 num : Int) - (Nat.log2 den : Int) - 52
  let s := scaled 2 num den k
  max (if s.1 < Nat.pow 2 52 * s.2 then k - 1 else k) (-1074)

/-- The number nearest to a ratio, a tie going to the even mantissa. -/
def ofRatio (negative : Bool) (num den : Nat) : Binary64 :=
  if num = 0 then zero negative
  else
    let e := gridExponent num den
    let s := scaled 2 num den e
    let m := halfEven s.1 s.2
    if m = Nat.pow 2 53 then ofBits negative (Nat.pow 2 52) (e + 1) else ofBits negative m e

/-- The number nearest to `digits * 10 ^ exponent`. Values beyond the format's range on either side
are settled by their order of magnitude. -/
def ofDecimal (negative : Bool) (digits : Nat) (exponent : Int) : Binary64 :=
  let top := exponent + (Text.decimal digits).length
  if digits = 0 then zero negative
  else if 310 < top then infinite negative
  else if top < -330 then zero negative
  else
    let s := scaled 10 digits 1 (-exponent)
    ofRatio negative s.1 s.2

def ofInt (n : Int) : Binary64 := ofRatio (decide (n < 0)) n.natAbs 1

end Binary64

/-- The decimal number `digits * 10 ^ exponent`. -/
structure Decimal where
  digits : Nat
  exponent : Int
  deriving DecidableEq

namespace Decimal

def normalize (d : Decimal) : Decimal :=
  if 0 < d.digits ∧ d.digits % 10 = 0 then normalize ⟨d.digits / 10, d.exponent + 1⟩ else d
termination_by d.digits
decreasing_by omega

def top (d : Decimal) : Int := d.exponent + (Text.decimal d.digits).length - 1

def toBinary64 (negative : Bool) (d : Decimal) : Binary64 :=
  Binary64.ofDecimal negative d.normalize.digits d.normalize.exponent

def exact (m : Nat) (e : Int) : Decimal :=
  if 0 ≤ e then ⟨m * Nat.pow 2 e.toNat, 0⟩ else ⟨m * Nat.pow 5 (-e).toNat, e⟩

def leadingExponent (num den : Nat) : Int :=
  if den ≤ num then (Text.decimal (num / den)).length - 1
  else
    let len := (Text.decimal (den / num)).length
    if den ≤ num * Nat.pow 10 (len - 1) then 1 - (len : Int) else -(len : Int)

/-- The nearer of the two multiples of `10 ^ p` around a ratio that read back to the number `x`,
or the one that does. -/
def nearestOnGrid (x : Binary64) (num den : Nat) (p : Int) : Option Decimal :=
  let s := Binary64.scaled 10 num den p
  let low : Decimal := ⟨s.1 / s.2, p⟩
  let high : Decimal := ⟨s.1 / s.2 + 1, p⟩
  if low.toBinary64 false = x then
    if high.toBinary64 false = x then some ⟨Binary64.halfEven s.1 s.2, p⟩ else some low
  else if high.toBinary64 false = x then some high
  else none

/-- The shortest decimal that reads back to `m * 2 ^ e`. Seventeen digits are enough for every
number of the format; all digits would do in any case. -/
def shortest (m : Nat) (e : Int) (h : CanonicalBits m e) : Decimal :=
  let s := Binary64.scaled 2 m 1 (-e)
  let lead := leadingExponent s.1 s.2
  (((List.range 17).findSome? fun (i : Nat) =>
    nearestOnGrid (.finite false m e h) s.1 s.2 (lead - i)).getD (exact m e)).normalize

end Decimal
end RenderFarm

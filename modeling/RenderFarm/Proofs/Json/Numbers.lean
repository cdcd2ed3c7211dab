import RenderFarm.Json.Writer
import RenderFarm.Proofs.Number.Shortest
import RenderFarm.Proofs.Text

/-! Numbers in JSON texts. A literal is made of digits, the places after a point and an exponent,
and it is read up to a character that cannot go on with it. What is written for a number is a
literal, and the number that it stands for is the one that was written. -/
namespace RenderFarm

namespace Json

def EndsNumber (s : List Char) : Prop :=
  ∀ c ∈ s.head?, c.isDigit = false ∧ c ≠ '.' ∧ c ≠ 'e' ∧ c ≠ 'E'

def IsWhole (ds : List Char) : Prop :=
  Text.IsNumeral ds ∧ (ds = ['0'] ∨ ds.head? ≠ some '0')

theorem isWhole_decimal (n : Nat) : IsWhole (Text.decimal n) := by
  refine ⟨Text.isNumeral_decimal n, ?_⟩
  by_cases hn : n = 0
  · exact .inl (hn ▸ rfl)
  · exact .inr (Text.head?_decimal_ne hn)

variable {ds r rest : List Char}

theorem digitSpan_append (hds : ∀ c ∈ ds, c.isDigit = true)
    (hr : ∀ c ∈ r.head?, c.isDigit = false) : digitSpan (ds ++ r) = (ds, r) := by
  rw [digitSpan, List.takeWhile_append_of_pos hds, List.dropWhile_append_of_pos hds]
  cases r with
  | nil => simp
  | cons c r =>
    have hc := hr c rfl
    simp [hc]

theorem whole?_append (hds : IsWhole ds) (hr : ∀ c ∈ r.head?, c.isDigit = false) :
    whole? (ds ++ r) = some (ds, r) := by
  obtain ⟨⟨hne, hdigits⟩, hzero⟩ := hds
  obtain ⟨c, cs, rfl⟩ := List.exists_cons_of_ne_nil hne
  by_cases hc : c = '0'
  · obtain ⟨-, rfl⟩ : c = '0' ∧ cs = [] := by simpa [hc] using hzero
    subst hc
    rfl
  · rw [whole?, digitSpan_append hdigits hr]
    intro t ht
    exact hc (List.cons.inj ht).1

theorem fraction?_of_ends (hr : EndsNumber r) : fraction? r = some (none, r) := by
  unfold fraction?
  split
  · exact absurd rfl (hr '.' rfl).2.1
  · rfl

theorem fraction?_point (hds : Text.IsNumeral ds) (hr : ∀ c ∈ r.head?, c.isDigit = false) :
    fraction? ('.' :: (ds ++ r)) = some (some ds, r) := by
  obtain ⟨hne, hdigits⟩ := hds
  rw [fraction?, digitSpan_append hdigits hr]
  split
  · rename_i h
    cases h
    exact absurd rfl hne
  · rename_i h
    cases h
    rfl

theorem exponent?_of_ends (hr : EndsNumber r) : exponent? r = some (none, r) := by
  unfold exponent?
  split
  · rename_i c r
    obtain ⟨-, -, he, hE⟩ := hr c rfl
    rw [if_neg (by simp [he, hE])]
  · rfl

def fractionText : Option (List Char) → List Char
  | none => []
  | some ds => '.' :: ds

def exponentText : Option Int → List Char
  | none => []
  | some e => ['e', if e < 0 then '-' else '+'] ++ Text.decimal e.natAbs

theorem exponent?_signed (negative : Bool) (n : Nat) (hr : ∀ c ∈ r.head?, c.isDigit = false) :
    exponent? ('e' :: (if negative then '-' else '+') :: (Text.decimal n ++ r)) =
      some (some (if negative then -(n : Int) else n), r) := by
  have hspan := digitSpan_append (Text.isNumeral_decimal n).2 hr
  obtain ⟨d, ds, hds⟩ := List.exists_cons_of_ne_nil (Text.isNumeral_decimal n).1
  cases negative <;>
  · simp only [Bool.false_eq_true, ↓reduceIte]
    rw [exponent?, if_pos (.inl rfl)]
    dsimp only
    rw [hspan, hds]
    dsimp only
    rw [← hds, Text.ofDigitChars_decimal]
    rfl

theorem exponent?_exponentText (e : Int) (hr : ∀ c ∈ r.head?, c.isDigit = false) :
    exponent? (exponentText (some e) ++ r) = some (some e, r) := by
  have hread := exponent?_signed (decide (e < 0)) e.natAbs hr
  have hvalue : (if decide (e < 0) then -(e.natAbs : Int) else e.natAbs) = e := by
    rcases lt_or_ge e 0 with he | he
    · rw [if_pos (decide_eq_true he)]
      omega
    · rw [if_neg (by simpa using he)]
      omega
  rw [hvalue] at hread
  simpa [exponentText] using hread

variable {whole : List Char} {fraction : Option (List Char)} {exponent : Option Int}

/-- What a literal consists of, apart from its sign. -/
def literalText (whole : List Char) (fraction : Option (List Char)) (exponent : Option Int) :
    List Char :=
  whole ++ (fractionText fraction ++ exponentText exponent)

theorem isDigit_head?_exponentText (exponent : Option Int) (hr : EndsNumber rest) :
    ∀ c ∈ (exponentText exponent ++ rest).head?, c.isDigit = false := by
  cases exponent with
  | none => exact fun c hc => (hr c hc).1
  | some e =>
    rintro c ⟨⟩
    decide

theorem isDigit_head?_fractionText (fraction : Option (List Char)) (exponent : Option Int)
    (hr : EndsNumber rest) :
    ∀ c ∈ (fractionText fraction ++ (exponentText exponent ++ rest)).head?, c.isDigit = false := by
  cases fraction with
  | none => exact isDigit_head?_exponentText exponent hr
  | some ds =>
    rintro c ⟨⟩
    decide

theorem exponent?_text (exponent : Option Int) (hr : EndsNumber rest) :
    exponent? (exponentText exponent ++ rest) = some (exponent, rest) := by
  cases exponent with
  | none => exact exponent?_of_ends hr
  | some e => exact exponent?_exponentText e fun c hc => (hr c hc).1

theorem fraction?_text (hf : ∀ ds ∈ fraction, Text.IsNumeral ds) (exponent : Option Int)
    (hr : EndsNumber rest) :
    fraction? (fractionText fraction ++ (exponentText exponent ++ rest)) =
      some (fraction, exponentText exponent ++ rest) := by
  cases fraction with
  | some ds => exact fraction?_point (hf ds rfl) (isDigit_head?_exponentText exponent hr)
  | none =>
    cases exponent with
    | none => exact fraction?_of_ends hr
    | some e => rfl

def unsigned? (negative : Bool) (s : List Char) : Option (Datum × List Char) := do
  let (whole, r) ← whole? s
  let (fraction, r) ← fraction? r
  let (exponent, r) ← exponent? r
  let d ← literal? negative whole fraction exponent
  some (d, r)

theorem number?_minus (s : List Char) : number? ('-' :: s) = unsigned? true s := rfl

theorem number?_of_ne_minus {s : List Char} (h : s.head? ≠ some '-') :
    number? s = unsigned? false s := by
  cases s with
  | nil => rfl
  | cons c s =>
    have hc : c ≠ '-' := by simpa using h
    simp [number?, unsigned?, hc]

theorem isDigit_head?_of_whole? {s : List Char} {p : List Char × List Char}
    (h : whole? s = some p) : ∃ c cs, s = c :: cs ∧ c.isDigit = true := by
  cases s with
  | nil => cases h
  | cons c s =>
    refine ⟨c, s, rfl, ?_⟩
    by_contra hc
    have hzero : c ≠ '0' := by
      rintro rfl
      exact hc rfl
    have hspan : digitSpan (c :: s) = ([], c :: s) := by
      rw [digitSpan, List.takeWhile_cons_of_neg hc, List.dropWhile_cons_of_neg hc]
    rw [whole?, hspan] at h
    · cases h
    · intro t ht
      exact hzero (List.cons.inj ht).1

theorem isDigit_head?_of_unsigned? {negative : Bool} {s : List Char} {p : Datum × List Char}
    (h : unsigned? negative s = some p) : ∃ c cs, s = c :: cs ∧ c.isDigit = true := by
  obtain ⟨q, hq, -⟩ := Option.bind_eq_some_iff.1 h
  exact isDigit_head?_of_whole? hq

theorem number?_of_unsigned? {s : List Char} {p : Datum × List Char}
    (h : unsigned? false s = some p) : number? s = some p := by
  obtain ⟨c, cs, rfl, hc⟩ := isDigit_head?_of_unsigned? h
  rw [number?_of_ne_minus, h]
  rintro ⟨⟩
  exact absurd hc (by decide)

theorem head?_of_number? {s : List Char} {p : Datum × List Char} (h : number? s = some p) :
    ∃ c cs, s = c :: cs ∧ (c = '-' ∨ c.isDigit = true) := by
  by_cases hs : s.head? = some '-'
  · obtain ⟨cs, rfl⟩ := List.head?_eq_some_iff.1 hs
    exact ⟨_, _, rfl, .inl rfl⟩
  · rw [number?_of_ne_minus hs] at h
    obtain ⟨c, cs, rfl, hc⟩ := isDigit_head?_of_unsigned? h
    exact ⟨_, _, rfl, .inr hc⟩

/-- A literal is read to its end, and its parts tell the number. -/
theorem unsigned?_literalText (hw : IsWhole whole) (hf : ∀ ds ∈ fraction, Text.IsNumeral ds)
    (exponent : Option Int) (hr : EndsNumber rest) (negative : Bool) :
    unsigned? negative (literalText whole fraction exponent ++ rest) =
      (literal? negative whole fraction exponent).map (·, rest) := by
  have hwhole := whole?_append hw (isDigit_head?_fractionText fraction exponent hr)
  have hfraction := fraction?_text hf exponent hr
  have hexponent := exponent?_text exponent hr
  rw [literalText, List.append_assoc, List.append_assoc, unsigned?, hwhole, Option.bind_eq_bind,
    Option.bind_some]
  dsimp only
  rw [hfraction, Option.bind_eq_bind, Option.bind_some]
  dsimp only
  rw [hexponent, Option.bind_eq_bind, Option.bind_some]
  cases literal? negative whole fraction exponent <;> rfl

theorem literalText_integer (ds : List Char) : literalText ds none none = ds := by
  simp [literalText, fractionText, exponentText]

theorem number?_decimalInt {n : Int} (hlow : Int64.minValue.toInt ≤ n) (hhigh : n < UInt64.size)
    (hr : EndsNumber rest) : number? (Text.decimalInt n ++ rest) = some (.int n, rest) := by
  have hnone : ∀ ds ∈ (none : Option (List Char)), Text.IsNumeral ds := by simp
  have hread := unsigned?_literalText (isWhole_decimal n.natAbs) hnone none hr
  rw [literalText_integer] at hread
  unfold Text.decimalInt
  split
  · rename_i hn
    have hvalue : -(n.natAbs : Int) = n := by omega
    have hpos : 0 < n.natAbs := by omega
    rw [List.cons_append, number?_minus, hread, literal?]
    dsimp only
    rw [Text.ofDigitChars_decimal, hvalue, if_neg (by simp), if_pos ⟨rfl, rfl, rfl, hpos, hlow⟩]
    rfl
  · rename_i hn
    have hvalue : (n.natAbs : Int) = n := by omega
    have hlt : n.natAbs < UInt64.size := by omega
    refine number?_of_unsigned? ?_
    rw [hread, literal?]
    dsimp only
    rw [Text.ofDigitChars_decimal, if_pos ⟨rfl, rfl, rfl, hlt⟩, hvalue]
    rfl

def literalDecimal (whole : List Char) (fraction : Option (List Char)) (exponent : Option Int) :
    Decimal :=
  ⟨Nat.ofDigitChars 10 (whole ++ fraction.getD []) 0,
    exponent.getD 0 - (fraction.getD []).length⟩

/-- A literal with a point or an exponent that stands for a decimal. -/
structure IsLiteralOf (d : Decimal) (whole : List Char) (fraction : Option (List Char))
    (exponent : Option Int) : Prop where
  isWhole : IsWhole whole
  isNumeral : ∀ ds ∈ fraction, Text.IsNumeral ds
  marked : ¬(fraction.isNone = true ∧ exponent.isNone = true)
  value : (literalDecimal whole fraction exponent).normalize = d.normalize

theorem IsLiteralOf.literal?_eq {d : Decimal} (h : IsLiteralOf d whole fraction exponent)
    {negative : Bool} {x : Binary64} (hx : x.isFinite = true) (hd : d.toBinary64 negative = x) :
    literal? negative whole fraction exponent = some (.float x) := by
  have hread : (literalDecimal whole fraction exponent).toBinary64 negative = x := by
    rw [← Decimal.toBinary64_normalize, h.value, Decimal.toBinary64_normalize, hd]
  have hmark := h.marked
  rw [literal?]
  dsimp only
  rw [if_neg fun hint => hmark ⟨hint.1, hint.2.1⟩, if_neg fun hint => hmark ⟨hint.1, hint.2.1⟩]
  change (if ((literalDecimal whole fraction exponent).toBinary64 negative).isFinite then
    some (Datum.float ((literalDecimal whole fraction exponent).toBinary64 negative)) else none) = _
  rw [hread, if_pos hx]

variable {d : Decimal}

theorem isNumeral_zeros_decimal (k n : Nat) :
    Text.IsNumeral (List.replicate k '0' ++ Text.decimal n) := by
  refine ⟨List.append_ne_nil_of_right_ne_nil _ (Text.isNumeral_decimal n).1, fun c hc => ?_⟩
  rcases List.mem_append.1 hc with hc | hc
  · rw [List.eq_of_mem_replicate hc]
    decide
  · exact Text.isDigit_of_mem_decimal hc

theorem isLiteralOf_belowOne (htop : d.top < 0) :
    IsLiteralOf d ['0']
      (some (List.replicate (-d.top - 1).toNat '0' ++ Text.decimal d.digits)) none where
  isWhole := isWhole_decimal 0
  isNumeral := by
    rintro ds ⟨⟩
    exact isNumeral_zeros_decimal _ _
  marked := by simp
  value := by
    have hlength := Nat.length_toDigits_pos (b := 10) (n := d.digits)
    have hdigits : Nat.ofDigitChars 10
        (['0'] ++ (List.replicate (-d.top - 1).toNat '0' ++ Text.decimal d.digits)) 0 =
          d.digits := by
      rw [Nat.ofDigitChars_append, Nat.ofDigitChars_append, Nat.ofDigitChars_replicate_zero]
      exact Text.ofDigitChars_decimal d.digits
    rw [literalDecimal, Option.getD_some, hdigits, Option.getD_none, List.length_append,
      List.length_replicate]
    congr 2
    rw [Decimal.top, Text.decimal] at htop ⊢
    omega

def paddedDigits (d : Decimal) : List Char :=
  Text.decimal d.digits ++
    List.replicate (d.top.toNat + 2 - (Text.decimal d.digits).length) '0'

theorem isDigit_of_mem_paddedDigits {c : Char} (h : c ∈ paddedDigits d) : c.isDigit = true := by
  rcases List.mem_append.1 h with h | h
  · exact Text.isDigit_of_mem_decimal h
  · rw [List.eq_of_mem_replicate h]
    decide

theorem lt_length_paddedDigits (d : Decimal) : d.top.toNat + 1 < (paddedDigits d).length := by
  rw [paddedDigits, List.length_append, List.length_replicate]
  omega

theorem head?_paddedDigits (d : Decimal) :
    (paddedDigits d).head? = (Text.decimal d.digits).head? := by
  rw [paddedDigits, List.head?_append, Option.or_of_isSome]
  simpa using (Text.isNumeral_decimal d.digits).1

theorem isLiteralOf_fromOne (hd : 0 < d.digits) (htop : 0 ≤ d.top) :
    IsLiteralOf d ((paddedDigits d).take (d.top.toNat + 1))
      (some ((paddedDigits d).drop (d.top.toNat + 1))) none where
  isWhole := by
    have hhead : ((paddedDigits d).take (d.top.toNat + 1)).head? ≠ some '0' := by
      rw [List.head?_take, if_neg (by omega), head?_paddedDigits]
      exact Text.head?_decimal_ne hd.ne'
    refine ⟨⟨?_, fun c hc => isDigit_of_mem_paddedDigits (List.mem_of_mem_take hc)⟩, .inr hhead⟩
    have hlength := lt_length_paddedDigits d
    rw [← List.length_pos_iff, List.length_take]
    omega
  isNumeral := by
    rintro ds ⟨⟩
    refine ⟨?_, fun c hc => isDigit_of_mem_paddedDigits (List.mem_of_mem_drop hc)⟩
    have hlength := lt_length_paddedDigits d
    rw [← List.length_pos_iff, List.length_drop]
    omega
  marked := by simp
  value := by
    obtain ⟨k, hk⟩ : ∃ k, k = d.top.toNat + 2 - (Text.decimal d.digits).length := ⟨_, rfl⟩
    have hdigits : Nat.ofDigitChars 10 (paddedDigits d) 0 = d.digits * 10 ^ k := by
      rw [paddedDigits, Nat.ofDigitChars_append, Text.ofDigitChars_decimal,
        Nat.ofDigitChars_replicate_zero, hk, mul_comm]
    have hexponent : (0 : Int) - ((paddedDigits d).drop (d.top.toNat + 1)).length =
        d.exponent - k := by
      have hlength := Nat.length_toDigits_pos (b := 10) (n := d.digits)
      rw [List.length_drop, paddedDigits, List.length_append, List.length_replicate, ← hk]
      rw [Decimal.top, Text.decimal] at *
      omega
    rw [literalDecimal, Option.getD_some, List.take_append_drop, hdigits, Option.getD_none,
      hexponent]
    exact Decimal.normalize_mul_pow hd d.exponent k

theorem isLiteralOf_withExponent {c : Char} {cs : List Char} (hd : 0 < d.digits)
    (hdigits : Text.decimal d.digits = c :: cs) :
    IsLiteralOf d [c] (if cs = [] then none else some cs) (some d.top) where
  isWhole := by
    have hall := (Text.isNumeral_decimal d.digits).2
    have hhead := Text.head?_decimal_ne hd.ne'
    rw [hdigits] at hall hhead
    exact ⟨⟨by simp, by simpa using (List.forall_mem_cons.1 hall).1⟩, .inr hhead⟩
  isNumeral := by
    have hall := (Text.isNumeral_decimal d.digits).2
    rw [hdigits] at hall
    intro ds hds
    split at hds
    · cases hds
    · rename_i hcs
      cases hds
      exact ⟨hcs, (List.forall_mem_cons.1 hall).2⟩
  marked := by simp
  value := by
    have hplaces : (if cs = [] then none else some cs).getD [] = cs := by
      split
      · rename_i hcs
        exact hcs.symm
      · rfl
    have hexponent : d.top - cs.length = d.exponent := by
      rw [Decimal.top, hdigits, List.length_cons]
      omega
    rw [literalDecimal, hplaces, List.singleton_append, ← hdigits, Text.ofDigitChars_decimal,
      Option.getD_some, hexponent]

theorem exists_isLiteralOf (hd : 0 < d.digits) :
    ∃ whole fraction exponent, decimalText d = literalText whole fraction exponent ∧
      IsLiteralOf d whole fraction exponent := by
  unfold decimalText
  dsimp only
  split
  · rcases lt_or_ge d.top 0 with htop | htop
    · refine ⟨_, _, _, ?_, isLiteralOf_belowOne htop⟩
      simp [positional, htop, literalText, fractionText, exponentText]
    · refine ⟨_, _, _, ?_, isLiteralOf_fromOne hd htop⟩
      simp [positional, not_lt.2 htop, literalText, fractionText, exponentText, paddedDigits]
  · obtain ⟨c, cs, hdigits⟩ := List.exists_cons_of_ne_nil (Text.isNumeral_decimal d.digits).1
    refine ⟨_, _, _, ?_, isLiteralOf_withExponent hd hdigits⟩
    rw [hdigits]
    by_cases hcs : cs = []
    · simp [withExponent, hcs, literalText, fractionText, exponentText]
    · have hlength : ¬cs.length = 0 := by simpa using hcs
      simp [withExponent, hcs, hlength, literalText, fractionText, exponentText]

theorem unsigned?_of_isLiteralOf (h : IsLiteralOf d whole fraction exponent)
    (hr : EndsNumber rest) {negative : Bool} {x : Binary64} (hx : x.isFinite = true)
    (hd : d.toBinary64 negative = x) :
    unsigned? negative (literalText whole fraction exponent ++ rest) = some (.float x, rest) := by
  rw [unsigned?_literalText h.isWhole h.isNumeral exponent hr, h.literal?_eq hx hd, Option.map_some]

def magnitudeText (m : Nat) (e : Int) (h : CanonicalBits m e) : List Char :=
  if m = 0 then ['0', '.', '0'] else decimalText (Decimal.shortest m e h)

theorem exists_isLiteralOf_magnitudeText {m : Nat} {e : Int} (h : CanonicalBits m e) :
    ∃ d whole fraction exponent, magnitudeText m e h = literalText whole fraction exponent ∧
      IsLiteralOf d whole fraction exponent ∧
      ∀ negative, d.toBinary64 negative = .finite negative m e h := by
  unfold magnitudeText
  split
  · rename_i hm
    subst hm
    obtain rfl : e = -1074 := by
      obtain ⟨-, -, -, hfull | hleast⟩ := h
      · exact absurd hfull (by decide)
      · exact hleast
    have hzero : IsLiteralOf ⟨0, -1⟩ ['0'] (some ['0']) none :=
      ⟨isWhole_decimal 0, by
        rintro ds ⟨⟩
        exact Text.isNumeral_decimal 0, by simp, rfl⟩
    refine ⟨_, _, _, _, rfl, hzero, fun negative => ?_⟩
    rw [Decimal.toBinary64, Decimal.normalize_of_not (by simp)]
    rfl
  · rename_i hm
    have hpos := Nat.pos_of_ne_zero hm
    obtain ⟨whole, fraction, exponent, htext, hliteral⟩ :=
      exists_isLiteralOf (Decimal.digits_shortest_pos hpos h)
    exact ⟨_, whole, fraction, exponent, htext, hliteral, Decimal.toBinary64_shortest hpos h⟩

theorem unsigned?_magnitudeText {m : Nat} {e : Int} (h : CanonicalBits m e)
    (hr : EndsNumber rest) (negative : Bool) :
    unsigned? negative (magnitudeText m e h ++ rest) =
      some (.float (.finite negative m e h), rest) := by
  obtain ⟨d, whole, fraction, exponent, htext, hliteral, hread⟩ := exists_isLiteralOf_magnitudeText h
  rw [htext, unsigned?_of_isLiteralOf hliteral hr rfl (hread negative)]

theorem numberText?_eq_some_iff {x : Binary64} {t : List Char} :
    numberText? x = some t ↔ ∃ negative m e h, x = .finite negative m e h ∧
      t = if negative then '-' :: magnitudeText m e h else magnitudeText m e h := by
  constructor
  · intro ht
    cases x with
    | infinite negative => cases ht
    | nan => cases ht
    | finite negative m e h => exact ⟨negative, m, e, h, rfl, (Option.some.inj ht).symm⟩
  · rintro ⟨negative, m, e, h, rfl, rfl⟩
    rfl

/-- A number of the format is read as it was written. -/
theorem number?_numberText {x : Binary64} {t : List Char} (ht : numberText? x = some t)
    (hr : EndsNumber rest) : number? (t ++ rest) = some (.float x, rest) := by
  obtain ⟨negative, m, e, h, rfl, rfl⟩ := numberText?_eq_some_iff.1 ht
  have hread := unsigned?_magnitudeText h hr negative
  cases negative with
  | true => exact hread
  | false => exact number?_of_unsigned? hread

theorem exists_numberText {x : Binary64} (hx : x.isFinite = true) :
    ∃ t, numberText? x = some t := by
  cases x with
  | finite negative m e h => exact ⟨_, rfl⟩
  | infinite negative => cases hx
  | nan => cases hx

end Json
end RenderFarm

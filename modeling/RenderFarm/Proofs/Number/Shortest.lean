import RenderFarm.Proofs.Number.Rounding

/-! Reading shortest decimals. Every candidate for the shortest form of a number is tried by reading
it, and all digits of the number read back in any case, so that the shortest form does. It has no
zero at its end, and zeros that are put there for the layout change nothing. -/
namespace RenderFarm

namespace Binary64

variable {negative : Bool} {m : Nat} {e : Int} {h : CanonicalBits m e}

theorem neg_zero (negative : Bool) : (zero negative).neg = zero (!negative) := rfl

theorem neg_ofBits (negative : Bool) (m : Nat) (e : Int) :
    (ofBits negative m e).neg = ofBits (!negative) m e := by
  unfold ofBits
  split <;> rfl

theorem neg_ofRatio (negative : Bool) (num den : Nat) :
    (ofRatio negative num den).neg = ofRatio (!negative) num den := by
  simp only [ofRatio, apply_ite neg, neg_zero, neg_ofBits]

theorem neg_ofDecimal (negative : Bool) (digits : Nat) (exponent : Int) :
    (ofDecimal negative digits exponent).neg = ofDecimal (!negative) digits exponent := by
  simp only [ofDecimal, apply_ite neg, neg_zero, neg_ofRatio]
  rfl

theorem ofDecimal_of_false {digits : Nat} {exponent : Int}
    (hread : ofDecimal false digits exponent = finite false m e h) (negative : Bool) :
    ofDecimal negative digits exponent = finite negative m e h := by
  cases negative with
  | false => exact hread
  | true => rw [← Bool.not_false, ← neg_ofDecimal, hread, neg]

end Binary64

namespace Decimal

def value (d : Decimal) : ℚ := d.digits * 10 ^ d.exponent

theorem normalize_of_pos {d : Decimal} (h : 0 < d.digits ∧ d.digits % 10 = 0) :
    d.normalize = normalize ⟨d.digits / 10, d.exponent + 1⟩ := by
  rw [normalize, if_pos h]

theorem normalize_of_not {d : Decimal} (h : ¬(0 < d.digits ∧ d.digits % 10 = 0)) :
    d.normalize = d := by
  rw [normalize, if_neg h]

@[simp] theorem value_normalize (d : Decimal) : d.normalize.value = d.value := by
  fun_induction normalize d with
  | case1 d h ih =>
    have hdigits : (d.digits : ℚ) = (d.digits / 10 : ℕ) * 10 := by
      have hmul := Nat.div_mul_cancel (Nat.dvd_of_mod_eq_zero h.2)
      exact_mod_cast hmul.symm
    rw [ih, value, value, hdigits, zpow_add₀ (by norm_num), zpow_one,
      mul_comm ((10 : ℚ) ^ d.exponent), mul_assoc]
  | case2 d h => rfl

@[simp] theorem normalize_normalize (d : Decimal) : d.normalize.normalize = d.normalize := by
  fun_induction normalize d with
  | case1 d h ih => exact ih
  | case2 d h => exact normalize_of_not h

theorem normalize_mul_pow {digits : Nat} (hd : 0 < digits) (exponent : Int) (k : Nat) :
    normalize ⟨digits * 10 ^ k, exponent - k⟩ = normalize ⟨digits, exponent⟩ := by
  induction k with
  | zero => simp
  | succ k ih =>
    have hdigits : digits * 10 ^ (k + 1) / 10 = digits * 10 ^ k := by
      rw [pow_succ, ← mul_assoc, Nat.mul_div_cancel _ (by decide)]
    have hexponent : exponent - (k + 1 : ℕ) + 1 = exponent - k := by omega
    have hzero : digits * 10 ^ (k + 1) % 10 = 0 := by
      rw [pow_succ, ← mul_assoc, Nat.mul_mod_left]
    rw [normalize_of_pos ⟨by positivity, hzero⟩]
    simp only [hdigits, hexponent, ih]

@[simp] theorem toBinary64_normalize (negative : Bool) (d : Decimal) :
    d.normalize.toBinary64 negative = d.toBinary64 negative := by
  rw [toBinary64, toBinary64, normalize_normalize]

variable {m : Nat} {e : Int} {h : CanonicalBits m e}

theorem toBinary64_of_false {d : Decimal} (hread : d.toBinary64 false = .finite false m e h)
    (negative : Bool) : d.toBinary64 negative = .finite negative m e h :=
  Binary64.ofDecimal_of_false hread negative

theorem toBinary64_of_value {d : Decimal} (hm : 0 < m) (hvalue : d.value = m * 2 ^ e)
    (negative : Bool) : d.toBinary64 negative = .finite negative m e h := by
  rw [← value_normalize] at hvalue
  exact Binary64.ofDecimal_eq_finite h hm hvalue negative

theorem value_exact (m : Nat) (e : Int) : (exact m e).value = m * 2 ^ e := by
  unfold exact
  split
  · rename_i he
    obtain ⟨k, rfl⟩ := Int.eq_ofNat_of_zero_le he
    rw [value, Int.toNat_natCast, zpow_zero, mul_one, zpow_natCast]
    push_cast [Nat.pow_eq]
    rfl
  · rename_i he
    obtain ⟨k, hk⟩ := Int.eq_ofNat_of_zero_le (show 0 ≤ -e by omega)
    obtain rfl : e = -(k : Int) := by omega
    have hten : (10 : ℚ) = 5 * 2 := by norm_num
    rw [value, neg_neg, Int.toNat_natCast, zpow_neg, zpow_neg, zpow_natCast, zpow_natCast, hten]
    push_cast [Nat.pow_eq]
    rw [mul_pow, mul_inv, mul_assoc, mul_inv_cancel_left₀ (by positivity)]

theorem halfEven_cases (num den : Nat) :
    Binary64.halfEven num den = num / den ∨ Binary64.halfEven num den = num / den + 1 := by
  unfold Binary64.halfEven
  dsimp only
  split
  · exact .inl rfl
  · split
    · exact .inr rfl
    · split
      · exact .inl rfl
      · exact .inr rfl

theorem toBinary64_of_nearestOnGrid {x : Binary64} {num den : Nat} {p : Int} {d : Decimal}
    (hd : nearestOnGrid x num den p = some d) : d.toBinary64 false = x := by
  unfold nearestOnGrid at hd
  dsimp only at hd
  split at hd
  · rename_i hlow
    split at hd
    · rename_i hhigh
      cases hd
      obtain hq | hq := halfEven_cases (Binary64.scaled 10 num den p).1
        (Binary64.scaled 10 num den p).2
      · rw [hq, hlow]
      · rw [hq, hhigh]
    · cases hd
      exact hlow
  · split at hd
    · rename_i hhigh
      cases hd
      exact hhigh
    · cases hd

/-- The shortest form of a number, with either sign, is read as the number. -/
theorem toBinary64_shortest (hm : 0 < m) (h : CanonicalBits m e) (negative : Bool) :
    (shortest m e h).toBinary64 negative = .finite negative m e h := by
  unfold shortest
  dsimp only
  rw [toBinary64_normalize]
  cases hfound : (List.range 17).findSome? fun (i : Nat) => nearestOnGrid (.finite false m e h)
      (Binary64.scaled 2 m 1 (-e)).1 (Binary64.scaled 2 m 1 (-e)).2
      (leadingExponent (Binary64.scaled 2 m 1 (-e)).1 (Binary64.scaled 2 m 1 (-e)).2 - i) with
  | none => exact toBinary64_of_value hm (value_exact m e) negative
  | some d =>
    obtain ⟨i, -, hi⟩ := List.exists_of_findSome?_eq_some hfound
    exact toBinary64_of_false (toBinary64_of_nearestOnGrid hi) negative

theorem normalize_shortest (m : Nat) (e : Int) (h : CanonicalBits m e) :
    (shortest m e h).normalize = shortest m e h := by
  unfold shortest
  exact normalize_normalize _

theorem digits_shortest_pos (hm : 0 < m) (h : CanonicalBits m e) :
    0 < (shortest m e h).digits := by
  by_contra hzero
  have hdigits : (shortest m e h).digits = 0 := by omega
  have hread := toBinary64_shortest hm h false
  rw [toBinary64, normalize_shortest, hdigits, Binary64.ofDecimal] at hread
  simp [Binary64.zero] at hread
  omega

end Decimal
end RenderFarm

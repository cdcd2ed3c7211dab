import Mathlib.Algebra.Order.Field.Power
import Mathlib.Tactic.Linarith
import Mathlib.Tactic.NormNum
import RenderFarm.Binary64

/-! Rounding ratios that are numbers of the binary64 format. The grid on which a ratio is rounded is
found from the lengths of its two parts, and it is the one on which the format stores the number, so
that rounding gives back a number that is given as a ratio or as a decimal. -/
namespace RenderFarm
namespace Binary64

theorem scaled_snd_pos {base den : Nat} (hbase : 0 < base) (hden : 0 < den) (num : Nat) (e : Int) :
    0 < (scaled base num den e).2 := by
  unfold scaled
  split
  · exact Nat.mul_pos hden (Nat.pow_pos hbase)
  · exact hden

theorem ratio_scaled (base num den : Nat) (e : Int) :
    ((scaled base num den e).1 : ℚ) / (scaled base num den e).2 = num / den / base ^ e := by
  unfold scaled
  split
  · rename_i he
    obtain ⟨k, rfl⟩ := Int.eq_ofNat_of_zero_le he
    rw [Int.toNat_natCast, zpow_natCast]
    push_cast [Nat.pow_eq]
    rw [div_div]
  · rename_i he
    obtain ⟨k, hk⟩ := Int.eq_ofNat_of_zero_le (show 0 ≤ -e by omega)
    obtain rfl : e = -(k : Int) := by omega
    rw [neg_neg, Int.toNat_natCast, zpow_neg, zpow_natCast]
    push_cast [Nat.pow_eq]
    rw [div_inv_eq_mul, div_mul_eq_mul_div]

theorem two_zpow_log2_le {n : Nat} (hn : n ≠ 0) : (2 : ℚ) ^ (n.log2 : Int) ≤ n := by
  rw [zpow_natCast]
  exact_mod_cast Nat.log2_self_le hn

theorem lt_two_zpow_log2 (n : Nat) : (n : ℚ) < 2 ^ ((n.log2 : Int) + 1) := by
  have h : (n : ℚ) < 2 ^ (n.log2 + 1) := by exact_mod_cast Nat.lt_log2_self
  exact_mod_cast h

variable {num den : Nat}

/-- The lengths of the parts tell a ratio up to a factor of four. -/
theorem ratio_bounds (hnum : num ≠ 0) (hden : den ≠ 0) :
    (2 : ℚ) ^ ((num.log2 : Int) - den.log2 - 1) ≤ num / den ∧
      (num / den : ℚ) < 2 ^ ((num.log2 : Int) - den.log2 + 1) := by
  have hd : (0 : ℚ) < den := by exact_mod_cast Nat.pos_of_ne_zero hden
  rw [le_div_iff₀ hd, div_lt_iff₀ hd]
  constructor
  · calc (2 : ℚ) ^ ((num.log2 : Int) - den.log2 - 1) * den
        ≤ 2 ^ ((num.log2 : Int) - den.log2 - 1) * 2 ^ ((den.log2 : Int) + 1) :=
          mul_le_mul_of_nonneg_left (lt_two_zpow_log2 den).le (by positivity)
      _ = 2 ^ (num.log2 : Int) := by
          rw [← zpow_add₀ two_ne_zero]
          congr 1
          omega
      _ ≤ num := two_zpow_log2_le hnum
  · calc (num : ℚ) < 2 ^ ((num.log2 : Int) + 1) := lt_two_zpow_log2 num
      _ = 2 ^ ((num.log2 : Int) - den.log2 + 1) * 2 ^ (den.log2 : Int) := by
          rw [← zpow_add₀ two_ne_zero]
          congr 1
          omega
      _ ≤ 2 ^ ((num.log2 : Int) - den.log2 + 1) * den :=
          mul_le_mul_of_nonneg_left (two_zpow_log2_le hden) (by positivity)

/-- The test by which the grid is chosen: the ratio has fewer than 53 bits before the point. -/
theorem scaled_lt_iff (num : Nat) (hden : den ≠ 0) (k : Int) :
    (scaled 2 num den k).1 < Nat.pow 2 52 * (scaled 2 num den k).2 ↔
      (num / den : ℚ) < 2 ^ (k + 52) := by
  have hs : (0 : ℚ) < (scaled 2 num den k).2 := by
    exact_mod_cast scaled_snd_pos two_pos (Nat.pos_of_ne_zero hden) num k
  have hpow : ((Nat.pow 2 52 : Nat) : ℚ) = 2 ^ (52 : Int) := by norm_num
  rw [← Nat.cast_lt (α := ℚ), Nat.cast_mul, ← div_lt_iff₀ hs, ratio_scaled, hpow, Nat.cast_ofNat,
    div_lt_iff₀ (by positivity), add_comm k, zpow_add₀ two_ne_zero]

/-- The grid around a ratio has the exponent that leaves a mantissa of 53 bits, unless that is less
than the least exponent. -/
theorem exists_gridExponent (hnum : num ≠ 0) (hden : den ≠ 0) :
    ∃ g, gridExponent num den = max g (-1074) ∧ (2 : ℚ) ^ (g + 52) ≤ num / den ∧
      (num / den : ℚ) < 2 ^ (g + 53) := by
  obtain ⟨hlow, hhigh⟩ := ratio_bounds hnum hden
  have htest := scaled_lt_iff num hden ((num.log2 : Int) - den.log2 - 52)
  unfold gridExponent
  dsimp only
  split
  · rename_i h
    refine ⟨_, rfl, ?_, ?_⟩
    · convert hlow using 2
      omega
    · convert htest.1 h using 2
      omega
  · rename_i h
    refine ⟨_, rfl, not_lt.1 (mt htest.2 h), ?_⟩
    convert hhigh using 2
    omega

variable {m : Nat} {e : Int}

theorem gridExponent_eq (h : CanonicalBits m e) (hnum : num ≠ 0) (hden : den ≠ 0)
    (hvalue : (num / den : ℚ) = m * 2 ^ e) : gridExponent num den = e := by
  obtain ⟨g, hg, hlow, hhigh⟩ := exists_gridExponent hnum hden
  obtain ⟨hlt, hmin, -, hfull⟩ := h
  have hpos : (0 : ℚ) < 2 ^ e := by positivity
  rw [hvalue] at hlow hhigh
  have hle : g ≤ e := by
    have hm53 : (m : ℚ) < 2 ^ (53 : Int) := by exact_mod_cast hlt
    have hupper : (2 : ℚ) ^ (g + 52) < 2 ^ (e + 53) := by
      calc (2 : ℚ) ^ (g + 52) ≤ m * 2 ^ e := hlow
        _ < 2 ^ (53 : Int) * 2 ^ e := mul_lt_mul_of_pos_right hm53 hpos
        _ = 2 ^ (e + 53) := by rw [← zpow_add₀ two_ne_zero, add_comm]
    have hexponents := (zpow_lt_zpow_iff_right₀ one_lt_two).1 hupper
    omega
  obtain hfull | hleast := hfull
  · have hm52 : (2 : ℚ) ^ (52 : Int) ≤ m := by exact_mod_cast hfull
    have hlower : (2 : ℚ) ^ (e + 52) < 2 ^ (g + 53) := by
      calc (2 : ℚ) ^ (e + 52) = 2 ^ (52 : Int) * 2 ^ e := by
            rw [← zpow_add₀ two_ne_zero, add_comm]
        _ ≤ m * 2 ^ e := mul_le_mul_of_nonneg_right hm52 hpos.le
        _ < 2 ^ (g + 53) := hhigh
    have hexponents := (zpow_lt_zpow_iff_right₀ one_lt_two).1 hlower
    omega
  · omega

theorem halfEven_mul {n : Nat} (hden : 0 < den) : halfEven (n * den) den = n := by
  simp [halfEven, Nat.mul_div_cancel n hden, hden]

/-- A ratio that is a number of the format rounds to that number. -/
theorem ofRatio_eq_finite (h : CanonicalBits m e) (hm : 0 < m) (hden : den ≠ 0)
    (hvalue : (num / den : ℚ) = m * 2 ^ e) (negative : Bool) :
    ofRatio negative num den = finite negative m e h := by
  have hpos : (0 : ℚ) < m * 2 ^ e := by positivity
  have hnum : num ≠ 0 := by
    rintro rfl
    rw [← hvalue] at hpos
    simp at hpos
  have hs := scaled_snd_pos two_pos (Nat.pos_of_ne_zero hden) num e
  have hmantissa : (scaled 2 num den e).1 = m * (scaled 2 num den e).2 := by
    have hs' : ((scaled 2 num den e).2 : ℚ) ≠ 0 := by exact_mod_cast hs.ne'
    have hratio := ratio_scaled 2 num den e
    rw [hvalue, Nat.cast_ofNat, mul_div_cancel_right₀ _ (by positivity), div_eq_iff hs'] at hratio
    exact_mod_cast hratio
  have hlt : m ≠ Nat.pow 2 53 := h.1.ne
  rw [ofRatio, if_neg hnum]
  dsimp only
  rw [gridExponent_eq h hnum hden hvalue, hmantissa, halfEven_mul hs, if_neg hlt, ofBits,
    dif_pos h]

theorem ten_zpow_length_le {n : Nat} (hn : n ≠ 0) :
    (10 : ℚ) ^ ((Text.decimal n).length - 1 : Int) ≤ n := by
  obtain ⟨k, hk⟩ : ∃ k, (Text.decimal n).length = k + 1 :=
    Nat.exists_eq_succ_of_ne_zero Nat.length_toDigits_pos.ne'
  rw [hk, Nat.cast_add, Nat.cast_one, add_sub_cancel_right, zpow_natCast]
  obtain rfl | hpos := Nat.eq_zero_or_pos k
  · rw [pow_zero]
    exact_mod_cast Nat.one_le_iff_ne_zero.2 hn
  · have hlength : ¬n < 10 ^ k := by
      rw [← Nat.length_toDigits_le_iff (by decide) hpos]
      exact Nat.not_le.2 (Nat.lt_of_lt_of_eq (Nat.lt_succ_self k) hk.symm)
    exact_mod_cast Nat.not_lt.1 hlength

theorem lt_ten_zpow_length (n : Nat) : (n : ℚ) < 10 ^ ((Text.decimal n).length : Int) := by
  have hlength : n < 10 ^ (Text.decimal n).length :=
    (Nat.length_toDigits_le_iff (by decide) Nat.length_toDigits_pos).1 (Nat.le_refl _)
  rw [zpow_natCast]
  exact_mod_cast hlength

theorem two_pow_lt_ten_pow : (2 : ℕ) ^ 1074 < 10 ^ 331 ∧ (2 : ℕ) ^ 1024 < 10 ^ 310 := by
  decide +kernel

theorem value_bounds (h : CanonicalBits m e) (hm : 0 < m) :
    (10 : ℚ) ^ (-331 : Int) < m * 2 ^ e ∧ (m * 2 ^ e : ℚ) < 10 ^ (310 : Int) := by
  obtain ⟨hlt, hmin, hmax, -⟩ := h
  have hpos : (0 : ℚ) < 2 ^ e := by positivity
  have hone : (1 : ℚ) ≤ m := by exact_mod_cast hm
  have hm53 : (m : ℚ) ≤ 2 ^ (53 : Int) := by exact_mod_cast hlt.le
  obtain ⟨hleast, hgreatest⟩ := two_pow_lt_ten_pow
  rw [← Nat.cast_lt (α := ℚ), Nat.cast_pow, Nat.cast_pow, Nat.cast_ofNat, Nat.cast_ofNat]
    at hleast hgreatest
  constructor
  · calc (10 : ℚ) ^ (-331 : Int) = (10 ^ 331)⁻¹ := zpow_neg (10 : ℚ) 331
      _ < (2 ^ 1074)⁻¹ := inv_strictAnti₀ (by positivity) hleast
      _ = 2 ^ (-1074 : Int) := (zpow_neg (2 : ℚ) 1074).symm
      _ ≤ 2 ^ e := zpow_le_zpow_right₀ one_le_two hmin
      _ ≤ m * 2 ^ e := le_mul_of_one_le_left hpos.le hone
  · calc (m * 2 ^ e : ℚ) ≤ 2 ^ (53 : Int) * 2 ^ (971 : Int) :=
          mul_le_mul hm53 (zpow_le_zpow_right₀ one_le_two hmax) hpos.le (by positivity)
      _ = 2 ^ 1024 := (zpow_add₀ two_ne_zero _ _).symm
      _ < 10 ^ (310 : Int) := hgreatest

/-- A decimal that is a number of the format is read as that number. -/
theorem ofDecimal_eq_finite (h : CanonicalBits m e) (hm : 0 < m) {digits : Nat} {exponent : Int}
    (hvalue : (digits * 10 ^ exponent : ℚ) = m * 2 ^ e) (negative : Bool) :
    ofDecimal negative digits exponent = finite negative m e h := by
  obtain ⟨hlow, hhigh⟩ := value_bounds h hm
  have hten : (0 : ℚ) < 10 ^ exponent := by positivity
  have hdigits : digits ≠ 0 := by
    rintro rfl
    rw [← hvalue, Nat.cast_zero, zero_mul] at hlow
    exact absurd hlow (not_lt.2 (by positivity))
  have hlarge : ¬310 < exponent + (Text.decimal digits).length := by
    intro htop
    have hlower : (10 : ℚ) ^ (310 : Int) ≤ m * 2 ^ e := by
      calc (10 : ℚ) ^ (310 : Int)
          ≤ 10 ^ (((Text.decimal digits).length - 1 : Int) + exponent) :=
            zpow_le_zpow_right₀ (by norm_num) (by omega)
        _ = 10 ^ ((Text.decimal digits).length - 1 : Int) * 10 ^ exponent :=
            zpow_add₀ (by norm_num) _ _
        _ ≤ digits * 10 ^ exponent :=
            mul_le_mul_of_nonneg_right (ten_zpow_length_le hdigits) hten.le
        _ = m * 2 ^ e := hvalue
    exact absurd hhigh (not_lt.2 hlower)
  have hsmall : ¬exponent + (Text.decimal digits).length < -330 := by
    intro htop
    have hupper : (m * 2 ^ e : ℚ) ≤ 10 ^ (-331 : Int) := by
      calc (m * 2 ^ e : ℚ) = digits * 10 ^ exponent := hvalue.symm
        _ ≤ 10 ^ ((Text.decimal digits).length : Int) * 10 ^ exponent :=
            mul_le_mul_of_nonneg_right (lt_ten_zpow_length digits).le hten.le
        _ = 10 ^ (((Text.decimal digits).length : Int) + exponent) :=
            (zpow_add₀ (by norm_num) _ _).symm
        _ ≤ 10 ^ (-331 : Int) := zpow_le_zpow_right₀ (by norm_num) (by omega)
    exact absurd hlow (not_lt.2 hupper)
  have hscale : 0 < (scaled 10 digits 1 (-exponent)).2 :=
    scaled_snd_pos (by decide) one_pos digits (-exponent)
  have hratio := ratio_scaled 10 digits 1 (-exponent)
  rw [Nat.cast_one, div_one, Nat.cast_ofNat, zpow_neg, div_inv_eq_mul, hvalue] at hratio
  rw [ofDecimal]
  dsimp only
  rw [if_neg hdigits, if_neg hlarge, if_neg hsmall]
  exact ofRatio_eq_finite h hm hscale.ne' hratio negative

end Binary64
end RenderFarm

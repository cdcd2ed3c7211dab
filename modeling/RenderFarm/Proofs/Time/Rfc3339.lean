import RenderFarm.Proofs.Time.Calendar
import RenderFarm.Time.Rfc3339

/-! Times in documents. An instant that is written in UTC is read as itself, also in a leap second,
with any fraction, and in a year that needs a sign. The instants that a text in the format can name
have such a year at most one beyond 0..9999. -/
namespace RenderFarm

open ClockTime

namespace Rfc3339

theorem skipBlank_cons {c : Char} (h : Text.isBlank c = false) (r : List Char) :
    skipBlank (c :: r) = c :: r := by
  rw [skipBlank, List.dropWhile_cons_of_neg (by simp [h])]

section Digits

variable {width n : Nat} {c : Char}

theorem exists_cons_of_paddedDecimal (width n : Nat) :
    ∃ d ds, Text.paddedDecimal width n = d :: ds ∧ d.isDigit = true := by
  obtain ⟨d, ds, h⟩ := List.exists_cons_of_ne_nil (Text.paddedDecimal_ne_nil width n)
  exact ⟨d, ds, h, Text.isDigit_of_mem_paddedDecimal (h ▸ List.mem_cons_self)⟩

theorem skipBlank_paddedDecimal (width n : Nat) (r : List Char) :
    skipBlank (Text.paddedDecimal width n ++ r) = Text.paddedDecimal width n ++ r := by
  obtain ⟨d, ds, h, hd⟩ := exists_cons_of_paddedDecimal width n
  rw [h, List.cons_append, skipBlank_cons (Text.isBlank_of_isDigit hd)]

theorem paddedDecimal_append_ne_cons (hc : c.isDigit = false) (r rest : List Char) :
    Text.paddedDecimal width n ++ r ≠ c :: rest := by
  obtain ⟨d, ds, h, hd⟩ := exists_cons_of_paddedDecimal width n
  rw [h, List.cons_append]
  intro heq
  rw [(List.cons.inj heq).1, hc] at hd
  cases hd

theorem upToDigits?_paddedDecimal (hw : 0 < width) (h : n < Nat.pow 10 width) (r : List Char) :
    upToDigits? width (Text.paddedDecimal width n ++ r) = some (n, r) := by
  have hlength := Text.length_paddedDecimal hw h
  have htake : ((Text.paddedDecimal width n ++ r).take width).takeWhile Char.isDigit =
      Text.paddedDecimal width n := by
    rw [List.take_left' hlength]
    exact List.takeWhile_eq_self_iff.2 fun _ => Text.isDigit_of_mem_paddedDecimal
  rw [upToDigits?, skipBlank_paddedDecimal]
  simp only [htake]
  split
  · rename_i hnil
    exact absurd hnil (Text.paddedDecimal_ne_nil width n)
  · rw [Text.ofDigitChars_paddedDecimal, List.drop_left]

theorem signed_paddedDecimal (sign : Int) (hc : c.isDigit = false) (r : List Char) :
    lenientYear?.signed sign (Text.paddedDecimal width n ++ c :: r) = some (sign * n, c :: r) := by
  rw [lenientYear?.signed, Text.takeWhile_isDigit_paddedDecimal _ _ hc]
  split
  · rename_i hnil
    exact absurd hnil (Text.paddedDecimal_ne_nil width n)
  · rw [Text.ofDigitChars_paddedDecimal, Text.dropWhile_isDigit_paddedDecimal _ _ hc]

theorem fraction?_paddedDecimal (hw : 0 < width) (hnine : width ≤ 9) (h : n < Nat.pow 10 width)
    (hc : c.isDigit = false) (r : List Char) :
    fraction? ('.' :: Text.paddedDecimal width n ++ c :: r) =
      some (n * Nat.pow 10 (9 - width), c :: r) := by
  have hlength := Text.length_paddedDecimal hw h
  have hall : (Text.paddedDecimal width n).take 9 = Text.paddedDecimal width n :=
    List.take_of_length_le (by omega)
  rw [List.cons_append, fraction?, Text.takeWhile_isDigit_paddedDecimal _ _ hc]
  split
  · rename_i hnil
    exact absurd hnil (Text.paddedDecimal_ne_nil width n)
  · simp only [Text.dropWhile_isDigit_paddedDecimal _ _ hc, hall, hlength,
      Text.ofDigitChars_paddedDecimal]

end Digits

theorem lenientYear?_yearText (y : Int) (r : List Char) :
    lenientYear? (yearText y ++ '-' :: r) = some (y, '-' :: r) := by
  have hhyphen : Char.isDigit '-' = false := rfl
  have hplus : Char.isDigit '+' = false := rfl
  unfold yearText
  split
  · rename_i hy
    have hfour : y.toNat < Nat.pow 10 4 := by
      have hpow : Nat.pow 10 4 = 10000 := rfl
      omega
    rw [lenientYear?, skipBlank_paddedDecimal]
    split
    · rename_i hsign
      exact absurd hsign (paddedDecimal_append_ne_cons hhyphen _ _)
    · rename_i hsign
      exact absurd hsign (paddedDecimal_append_ne_cons hplus _ _)
    · simp only [upToDigits?_paddedDecimal (by decide) hfour, Option.map_some,
        Int.toNat_of_nonneg hy.1]
  · split
    · rw [List.cons_append, lenientYear?, skipBlank_cons (by decide)]
      simp only [signed_paddedDecimal _ hhyphen]
      congr
      omega
    · rw [List.cons_append, lenientYear?, skipBlank_cons (by decide)]
      simp only [signed_paddedDecimal _ hhyphen]
      congr
      omega

theorem fraction?_fractionText {nanos : Nat} (h : nanos < 1000000000) :
    fraction? (fractionText nanos ++ ['Z']) = some (nanos, ['Z']) := by
  have hz : Char.isDigit 'Z' = false := rfl
  have hthree : Nat.pow 10 3 = 1000 := rfl
  have hsix : Nat.pow 10 6 = 1000000 := rfl
  have hnine : Nat.pow 10 9 = 1000000000 := rfl
  unfold fractionText
  split
  · rename_i hzero
    rw [hzero]
    rfl
  · split
    · rw [fraction?_paddedDecimal (by decide) (by decide) (by omega) hz, hsix]
      congr
      omega
    · split
      · rw [fraction?_paddedDecimal (by decide) (by decide) (by omega) hz, hthree]
        congr
        omega
      · rw [fraction?_paddedDecimal (by decide) (by decide) (by omega) hz, Nat.sub_self]
        congr
        exact Nat.mul_one nanos

theorem upToDigits?_twoDigits {n : Nat} (h : n < 100) (r : List Char) :
    upToDigits? 2 (twoDigits n ++ r) = some (n, r) :=
  upToDigits?_paddedDecimal (by decide) h r

theorem after?_cons_self (c : Char) (r : List Char) : after? c (c :: r) = some r := if_pos rfl

theorem afterMark?_cons (r : List Char) : afterMark? ('T' :: r) = some r := rfl

theorem readLenient?_utcText {c : ClockTime} (h : c.isValid = true)
    (hyear : yearInRange c.date.year = true) :
    readLenient? (String.ofList (utcText c)) =
      (c.instant? 0).bind fun t =>
        if yearInRange (t.clockTime 0).date.year then some t else none := by
  obtain ⟨⟨hmonth, hday⟩, ⟨hhour, hminute, hsecond⟩, hnanos⟩ := ClockTime.bounds_of_isValid h
  have hcolon : Text.isBlank ':' = false := by decide
  have hhyphen : Text.isBlank '-' = false := by decide
  have hz : Text.isBlank 'Z' = false := by decide
  have hoffset : lenientOffset? ['Z'] = some (0, []) := rfl
  have htext : utcText c = yearText c.date.year ++ '-' :: (twoDigits c.date.month ++
      '-' :: (twoDigits c.date.day ++ 'T' :: (twoDigits c.hour ++ ':' :: (twoDigits c.minute ++
        ':' :: (twoDigits c.second ++ (fractionText c.nanos ++ ['Z'])))))) := by
    simp only [utcText, dateText, List.append_assoc, List.cons_append]
  rw [readLenient?, String.toList_ofList, htext, lenientYear?_yearText]
  dsimp only [Option.bind_eq_bind, Option.bind_some]
  rw [skipBlank_cons hhyphen, after?_cons_self, Option.bind_some, upToDigits?_twoDigits hmonth]
  dsimp only [Option.bind_some]
  rw [skipBlank_cons hhyphen, after?_cons_self, Option.bind_some, upToDigits?_twoDigits hday]
  dsimp only [Option.bind_some]
  rw [afterMark?_cons, Option.bind_some, upToDigits?_twoDigits hhour]
  dsimp only [Option.bind_some]
  rw [skipBlank_cons hcolon, after?_cons_self, Option.bind_some, upToDigits?_twoDigits hminute]
  dsimp only [Option.bind_some]
  rw [skipBlank_cons hcolon, after?_cons_self, Option.bind_some, upToDigits?_twoDigits hsecond]
  dsimp only [Option.bind_some]
  rw [fraction?_fractionText hnanos]
  dsimp only [Option.bind_some]
  rw [skipBlank_cons hz, hoffset]
  dsimp only [Option.bind_some]
  exact if_pos ⟨rfl, hyear⟩

theorem digits?_lt {n m : Nat} {s r : List Char} (h : digits? n s = some (m, r)) :
    m < Nat.pow 10 n := by
  simp only [digits?, Option.ite_none_right_eq_some, Option.some.injEq, Prod.mk.injEq] at h
  obtain ⟨⟨hlength, hdigits⟩, rfl, -⟩ := h
  have hlt := Text.ofDigitChars_lt (List.all_eq_true.1 hdigits)
  rwa [hlength] at hlt

theorem sign?_eq_some {sign : Int} {s r : List Char} (h : sign? s = some (sign, r)) :
    sign = 1 ∨ sign = -1 := by
  cases s with
  | nil => cases h
  | cons c s =>
    simp only [sign?] at h
    split at h
    · cases h
      exact Or.inl rfl
    · split at h
      · cases h
        exact Or.inr rfl
      · cases h

theorem offset?_bounds {between : List Char → Option (List Char)} {minutes : Int}
    {s r : List Char} (h : offset? between s = some (minutes, r)) :
    -1440 < minutes ∧ minutes < 1440 := by
  unfold offset? at h
  split at h
  · cases h
    decide
  · cases h
    decide
  · simp only [Option.bind_eq_bind, Option.bind_eq_some_iff, Option.ite_none_right_eq_some,
      Option.some.injEq, Prod.mk.injEq] at h
    obtain ⟨⟨sign, r₁⟩, hsign, ⟨hours, r₂⟩, -, r₃, -, ⟨rest, r₄⟩, -, hbounds, rfl, -⟩ := h
    obtain rfl | rfl := sign?_eq_some hsign <;> omega

/-- What a text in the format can name is within the calendar. -/
theorem yearInRange_of_read? {text : String} {t : Instant} (h : read? text = some t) :
    yearInRange (t.clockTime 0).date.year = true := by
  simp only [read?, Option.bind_eq_bind, Option.bind_eq_some_iff, Option.ite_none_right_eq_some]
    at h
  obtain ⟨⟨year, r₁⟩, hyear, -, -, ⟨month, r₂⟩, -, -, -, ⟨day, r₃⟩, -, -, -, ⟨hour, r₄⟩, -, -, -,
    ⟨minute, r₅⟩, -, -, -, ⟨second, r₆⟩, -, ⟨nanos, r₇⟩, -, ⟨offset, r₈⟩, hoffset, -, h⟩ := h
  have hfour : year < 10000 := digits?_lt hyear
  have hbounds := year_bounds_of_instant? h (offset?_bounds hoffset)
  rw [yearInRange, Bool.and_eq_true, decide_eq_true_eq, decide_eq_true_eq]
  simp only at hbounds
  omega

theorem readLenient?_toRfc3339 {t : Instant}
    (h : yearInRange (t.clockTime 0).date.year = true) :
    readLenient? t.toRfc3339 = some t := by
  rw [Instant.toRfc3339, readLenient?_utcText (Instant.isValid_clockTime t 0) h,
    Instant.instant?_clockTime_utc, Option.bind_some, if_pos h]

end Rfc3339
end RenderFarm

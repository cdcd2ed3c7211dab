import RenderFarm.Proofs.Time.Calendar

/-! The order of times. Dates are ordered as their day numbers are, and what a clock with a fixed
offset shows is ordered, second by second, as the instants are. A clock that is whole minutes ahead
of UTC shows a leap second between the second before and the one after it; every other clock shows
it as the one after it, and takes no other two seconds for one. Stamps have one width and put the
greater unit first, so that they are ordered as texts in the same way. -/
namespace RenderFarm

namespace Date

/-- Dates in their order: the year decides before the month, and the month before the day. -/
instance : LT Date :=
  ⟨fun d e => d.year < e.year ∨
    d.year = e.year ∧ (d.month < e.month ∨ d.month = e.month ∧ d.day < e.day)⟩

theorem lt_def {d e : Date} : d < e ↔ d.year < e.year ∨
    d.year = e.year ∧ (d.month < e.month ∨ d.month = e.month ∧ d.day < e.day) :=
  Iff.rfl

theorem ext_iff {d e : Date} : d = e ↔ d.year = e.year ∧ d.month = e.month ∧ d.day = e.day := by
  cases d
  cases e
  simp

theorem foldr_take_add_getD_le_take (ls : List Nat) {i j : Nat} (h : i < j) :
    (ls.take i).foldr (· + ·) 0 + ls.getD i 0 ≤ (ls.take j).foldr (· + ·) 0 := by
  have hle := foldr_take_add_getD_le (ls.take j) i
  rw [List.take_take, Nat.min_eq_left (Nat.le_of_lt h)] at hle
  rwa [List.getD_eq_getElem?_getD, List.getElem?_take_of_lt h, ← List.getD_eq_getElem?_getD] at hle

theorem dayNumber_lt_of_lt {d e : Date} (hd : d.isValid = true) (he : e.isValid = true)
    (h : d < e) : d.dayNumber < e.dayNumber := by
  obtain ⟨-, hlast⟩ := dayNumber_bounds hd
  obtain ⟨hfirst, -⟩ := dayNumber_bounds he
  rcases h with hyear | ⟨hyear, hmonth | ⟨hmonth, hday⟩⟩
  · have hmono := daysBeforeYear_mono (show d.year + 1 ≤ e.year by omega)
    omega
  · simp only [isValid, Bool.and_eq_true, decide_eq_true_eq] at hd he
    have hle := foldr_take_add_getD_le_take (monthLengths (isLeapYear d.year))
      (show d.month - 1 < e.month - 1 by omega)
    simp only [dayNumber, daysBeforeMonth, ← hyear]
    omega
  · simp only [dayNumber, hyear, hmonth]
    omega

theorem dayNumber_lt_iff {d e : Date} (hd : d.isValid = true) (he : e.isValid = true) :
    d.dayNumber < e.dayNumber ↔ d < e := by
  refine ⟨fun h => ?_, dayNumber_lt_of_lt hd he⟩
  by_contra hlt
  have hcases : d = e ∨ e < d := by
    rw [lt_def] at hlt ⊢
    rw [ext_iff]
    omega
  rcases hcases with rfl | hgt
  · omega
  · have := dayNumber_lt_of_lt he hd hgt
    omega

theorem ofDayNumber_lt_iff {m n : Int} : ofDayNumber m < ofDayNumber n ↔ m < n := by
  obtain ⟨hm, hm'⟩ := ofDayNumber_spec m
  obtain ⟨hn, hn'⟩ := ofDayNumber_spec n
  rw [← dayNumber_lt_iff hm hn, hm', hn']

theorem ofDayNumber_inj {m n : Int} : ofDayNumber m = ofDayNumber n ↔ m = n := by
  constructor
  · intro h
    rw [← (ofDayNumber_spec m).2, h, (ofDayNumber_spec n).2]
  · rintro rfl
    rfl

/-- The year is written with four digits and no sign. -/
def HasPlainYear (d : Date) : Prop := 0 ≤ d.year ∧ d.year ≤ 9999

instance (d : Date) : Decidable d.HasPlainYear :=
  inferInstanceAs (Decidable (0 ≤ d.year ∧ d.year ≤ 9999))

end Date

namespace ClockTime

/-- The clock times are the same but for the fraction of the second. A sixtieth second is one of its
own. -/
def SameSecond (c e : ClockTime) : Prop :=
  c.date = e.date ∧ c.hour = e.hour ∧ c.minute = e.minute ∧ c.second = e.second

instance (c e : ClockTime) : Decidable (c.SameSecond e) :=
  inferInstanceAs (Decidable (_ ∧ _ ∧ _ ∧ _))

/-- The first clock time lies in an earlier second. -/
def Earlier (c e : ClockTime) : Prop :=
  c.date < e.date ∨ c.date = e.date ∧ (c.hour < e.hour ∨ c.hour = e.hour ∧
    (c.minute < e.minute ∨ c.minute = e.minute ∧ c.second < e.second))

variable {c e : ClockTime}

theorem sameSecond_iff : c.SameSecond e ↔ ¬c.Earlier e ∧ ¬e.Earlier c := by
  simp only [SameSecond, Earlier, Date.lt_def, Date.ext_iff]
  omega

theorem yearText_of_hasPlainYear {d : Date} (h : d.HasPlainYear) :
    yearText d.year = Text.paddedDecimal 4 d.year.toNat :=
  if_pos h

theorem dateText_append_lt_iff {d e : Date} (hd : d.HasPlainYear) (he : e.HasPlainYear)
    (hd' : d.month < 100 ∧ d.day < 100) (he' : e.month < 100 ∧ e.day < 100) {s t : List Char} :
    dateText d ++ s < dateText e ++ t ↔ d < e ∨ d = e ∧ s < t := by
  have hyears := hd
  have hyears' := he
  unfold Date.HasPlainYear at hyears hyears'
  simp only [dateText, yearText_of_hasPlainYear hd, yearText_of_hasPlainYear he, twoDigits,
    List.append_assoc, List.cons_append]
  rw [Text.paddedDecimal_append_lt_iff (by decide) (by simp; omega) (by simp; omega),
    List.cons_lt_cons_self,
    Text.paddedDecimal_append_lt_iff (by decide) hd'.1 he'.1,
    List.cons_lt_cons_self,
    Text.paddedDecimal_append_lt_iff (by decide) hd'.2 he'.2, Date.lt_def, Date.ext_iff]
  have hless : d.year.toNat < e.year.toNat ↔ d.year < e.year := by omega
  have hsame : d.year.toNat = e.year.toNat ↔ d.year = e.year := by omega
  rw [hless, hsame]
  simp only [and_or_left, and_assoc, or_assoc]

theorem stamp_lt_iff_earlier (hc : c.isValid = true) (he : e.isValid = true)
    (hyear : c.date.HasPlainYear) (hyear' : e.date.HasPlainYear) :
    c.stamp < e.stamp ↔ c.Earlier e := by
  obtain ⟨hdate, ⟨hhour, hminute, hsecond⟩, -⟩ := bounds_of_isValid hc
  obtain ⟨hdate', ⟨hhour', hminute', hsecond'⟩, -⟩ := bounds_of_isValid he
  simp only [stamp, twoDigits, List.append_assoc, List.cons_append]
  rw [dateText_append_lt_iff hyear hyear' hdate hdate', List.cons_lt_cons_self,
    Text.paddedDecimal_append_lt_iff (by decide) hhour hhour',
    Text.paddedDecimal_append_lt_iff (by decide) hminute hminute',
    Text.paddedDecimal_lt_iff (by decide) hsecond hsecond']
  exact Iff.rfl

theorem stamp_eq_of_sameSecond (h : c.SameSecond e) : c.stamp = e.stamp := by
  obtain ⟨hdate, hhour, hminute, hsecond⟩ := h
  simp only [stamp, hdate, hhour, hminute, hsecond]

theorem length_stamp (hc : c.isValid = true) (hyear : c.date.HasPlainYear) :
    c.stamp.length = 17 := by
  obtain ⟨⟨hmonth, hday⟩, ⟨hhour, hminute, hsecond⟩, -⟩ := bounds_of_isValid hc
  have htwo : ∀ {n : Nat}, n < 100 → (twoDigits n).length = 2 := fun h =>
    Text.length_paddedDecimal (by decide) h
  have hfour : (yearText c.date.year).length = 4 := by
    have hbounds := hyear
    unfold Date.HasPlainYear at hbounds
    rw [yearText_of_hasPlainYear hyear, Text.length_paddedDecimal (by decide) (by simp; omega)]
  simp only [stamp, dateText, List.length_append, List.length_cons, hfour, htwo hmonth, htwo hday,
    htwo hhour, htwo hminute, htwo hsecond]

end ClockTime

namespace Instant

/-- Instants in their order: the seconds decide before the nanoseconds. -/
instance : LT Instant :=
  ⟨fun t u => t.seconds < u.seconds ∨ t.seconds = u.seconds ∧ t.nanos < u.nanos⟩

theorem lt_def {t u : Instant} :
    t < u ↔ t.seconds < u.seconds ∨ t.seconds = u.seconds ∧ t.nanos < u.nanos :=
  Iff.rfl

instance : DecidableLT Instant := fun t u =>
  inferInstanceAs (Decidable (t.seconds < u.seconds ∨ t.seconds = u.seconds ∧ t.nanos < u.nanos))

def IsLeap (t : Instant) : Prop := 1000000000 ≤ t.nanos

instance (t : Instant) : Decidable t.IsLeap := inferInstanceAs (Decidable (1000000000 ≤ t.nanos))

/-- The instants lie in one second, a leap second being one of its own. -/
def SameSecond (t u : Instant) : Prop := t.seconds = u.seconds ∧ (t.IsLeap ↔ u.IsLeap)

/-- The seconds since the start of 1970, a leap second counting with the one after it. -/
def roundedSeconds (t : Instant) : Int := t.seconds + (t.nanos / 1000000000 : Nat)

/-- Within a day, hours, minutes and seconds are in the order of the seconds of the day. One more
second, a leap second, is counted at the end of a minute. -/
theorem timeOfDay_lt_iff {a b k l : Nat} (ha : 1 ≤ k → a % 60 = 59) (hb : 1 ≤ l → b % 60 = 59)
    (hk : k ≤ 1) (hl : l ≤ 1) :
    (a / 3600 < b / 3600 ∨ a / 3600 = b / 3600 ∧ (a / 60 % 60 < b / 60 % 60 ∨
      a / 60 % 60 = b / 60 % 60 ∧ a % 60 + k < b % 60 + l)) ↔ a < b ∨ a = b ∧ k < l := by
  omega

theorem timeOfDay_lt_iff_of_uneven {a b k l : Nat} (ha : 1 ≤ k → a % 60 ≠ 59)
    (hb : 1 ≤ l → b % 60 ≠ 59) (hk : k ≤ 1) (hl : l ≤ 1) :
    (a / 3600 < b / 3600 ∨ a / 3600 = b / 3600 ∧ (a / 60 % 60 < b / 60 % 60 ∨
      a / 60 % 60 = b / 60 % 60 ∧ a % 60 + k < b % 60 + l)) ↔ a + k < b + l := by
  omega

variable {t u : Instant} {ahead : Int}

theorem earlier_clockTime_iff (heven : ahead % 60 = 0) :
    (t.clockTime ahead).Earlier (u.clockTime ahead) ↔
      t.seconds < u.seconds ∨
        t.seconds = u.seconds ∧ t.nanos / 1000000000 < u.nanos / 1000000000 := by
  have ht := t.nanos_lt
  have hu := u.nanos_lt
  have hleap := t.leap
  have hleap' := u.leap
  simp only [ClockTime.Earlier, clockTime, Date.ofDayNumber_lt_iff, Date.ofDayNumber_inj]
  rw [timeOfDay_lt_iff (by omega) (by omega) (by omega) (by omega)]
  omega

theorem earlier_clockTime_iff_of_uneven (huneven : ahead % 60 ≠ 0) :
    (t.clockTime ahead).Earlier (u.clockTime ahead) ↔ t.roundedSeconds < u.roundedSeconds := by
  have ht := t.nanos_lt
  have hu := u.nanos_lt
  have hleap := t.leap
  have hleap' := u.leap
  simp only [ClockTime.Earlier, clockTime, Date.ofDayNumber_lt_iff, Date.ofDayNumber_inj,
    roundedSeconds]
  rw [timeOfDay_lt_iff_of_uneven (by omega) (by omega) (by omega) (by omega)]
  omega

/-- A clock that is whole minutes ahead shows every second as one of its own. -/
theorem sameSecond_clockTime_iff (heven : ahead % 60 = 0) :
    (t.clockTime ahead).SameSecond (u.clockTime ahead) ↔ t.SameSecond u := by
  have ht := t.nanos_lt
  have hu := u.nanos_lt
  rw [ClockTime.sameSecond_iff, earlier_clockTime_iff heven, earlier_clockTime_iff heven,
    SameSecond, IsLeap, IsLeap]
  omega

/-- Any other clock shows a leap second as the second after it. -/
theorem sameSecond_clockTime_iff_of_uneven (huneven : ahead % 60 ≠ 0) :
    (t.clockTime ahead).SameSecond (u.clockTime ahead) ↔ t.roundedSeconds = u.roundedSeconds := by
  rw [ClockTime.sameSecond_iff, earlier_clockTime_iff_of_uneven huneven,
    earlier_clockTime_iff_of_uneven huneven]
  omega

theorem earlier_clockTime_iff_lt (h : ¬(t.clockTime ahead).SameSecond (u.clockTime ahead)) :
    (t.clockTime ahead).Earlier (u.clockTime ahead) ↔ t < u := by
  have ht := t.nanos_lt
  have hu := u.nanos_lt
  by_cases heven : ahead % 60 = 0
  · rw [sameSecond_clockTime_iff heven, SameSecond, IsLeap, IsLeap] at h
    rw [earlier_clockTime_iff heven, lt_def]
    omega
  · rw [sameSecond_clockTime_iff_of_uneven heven, roundedSeconds, roundedSeconds] at h
    rw [earlier_clockTime_iff_of_uneven heven, lt_def, roundedSeconds, roundedSeconds]
    omega

theorem toList_stamp_steady (t : Instant) (ahead : Int) :
    (t.stamp (.steady ahead)).toList = (t.clockTime ahead).stamp :=
  String.toList_ofList

theorem length_stamp (ht : (t.clockTime ahead).date.HasPlainYear) :
    (t.stamp (.steady ahead)).toList.length = 17 := by
  rw [toList_stamp_steady, ClockTime.length_stamp (isValid_clockTime t ahead) ht]

theorem stamp_lt_iff (ht : (t.clockTime ahead).date.HasPlainYear)
    (hu : (u.clockTime ahead).date.HasPlainYear) :
    t.stamp (.steady ahead) < u.stamp (.steady ahead) ↔
      (t.clockTime ahead).Earlier (u.clockTime ahead) := by
  rw [String.lt_iff, toList_stamp_steady, toList_stamp_steady,
    ClockTime.stamp_lt_iff_earlier (isValid_clockTime t ahead) (isValid_clockTime u ahead) ht hu]

theorem stamp_inj (ht : (t.clockTime ahead).date.HasPlainYear)
    (hu : (u.clockTime ahead).date.HasPlainYear) :
    t.stamp (.steady ahead) = u.stamp (.steady ahead) ↔
      (t.clockTime ahead).SameSecond (u.clockTime ahead) := by
  constructor
  · intro h
    have hless := stamp_lt_iff ht hu
    have hgreater := stamp_lt_iff hu ht
    rw [h, iff_false_left (String.lt_irrefl _)] at hless hgreater
    exact ClockTime.sameSecond_iff.2 ⟨hless, hgreater⟩
  · intro h
    rw [← String.toList_inj, toList_stamp_steady, toList_stamp_steady,
      ClockTime.stamp_eq_of_sameSecond h]

end Instant
end RenderFarm

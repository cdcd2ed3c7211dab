import RenderFarm.Proofs.Text
import RenderFarm.Time.Instant

/-! The calendar. A year has as many days as its months, so that a day number lies in one year and,
in it, in one month; the date of a day number is that day. What a clock shows at an instant tells the
instant again. Its stamp is made of digits, hyphens, an underscore and perhaps the sign of the year,
so that it can stand in the name of a file. -/
namespace RenderFarm
namespace Date

def daysInYear (leap : Bool) : Nat := if leap then 366 else 365

theorem daysBeforeYear_succ (y : Int) :
    daysBeforeYear (y + 1) = daysBeforeYear y + daysInYear (isLeapYear y) := by
  have hleap : isLeapYear y = true ↔ y % 4 = 0 ∧ (y % 100 ≠ 0 ∨ y % 400 = 0) := by
    simp [isLeapYear]
  unfold daysBeforeYear daysInYear
  by_cases h : isLeapYear y = true
  · rw [if_pos h]
    have := hleap.1 h
    omega
  · rw [if_neg h]
    have := mt hleap.2 h
    omega

theorem foldr_monthLengths (leap : Bool) :
    (monthLengths leap).foldr (· + ·) 0 = daysInYear leap := by
  cases leap <;> rfl

theorem getD_monthLengths_le (leap : Bool) (i : Nat) : (monthLengths leap).getD i 0 ≤ 31 := by
  have hall : ∀ l ∈ monthLengths leap, l ≤ 31 := by
    cases leap <;> decide
  rw [List.getD_eq_getElem?_getD]
  cases h : (monthLengths leap)[i]? with
  | none => decide
  | some l => exact hall l (List.mem_of_getElem? h)

/-- A day number lies in its year. -/
theorem daysBeforeYear_yearOf_le (n : Int) :
    daysBeforeYear (yearOf n) ≤ n ∧ n < daysBeforeYear (yearOf n + 1) := by
  have hbefore : n < daysBeforeYear (n * 400 / 146097 + 1 + 1) := by
    unfold daysBeforeYear
    omega
  have hafter : daysBeforeYear (n * 400 / 146097 - 1) ≤ n := by
    unfold daysBeforeYear
    omega
  simp only [yearOf]
  split
  · rename_i h
    rw [Int.sub_add_cancel]
    exact ⟨hafter, h⟩
  · rename_i h
    split
    · rename_i h'
      exact ⟨h', hbefore⟩
    · rename_i h'
      exact ⟨Int.not_lt.1 h, Int.not_le.1 h'⟩

theorem locate_spec {ls : List Nat} {n : Nat} (h : n < ls.foldr (· + ·) 0) :
    (locate ls n).1 < ls.length ∧ (locate ls n).2 < ls.getD (locate ls n).1 0 ∧
      (ls.take (locate ls n).1).foldr (· + ·) 0 + (locate ls n).2 = n := by
  induction ls generalizing n with
  | nil => simp at h
  | cons l ls ih =>
    simp only [locate]
    split
    · rename_i hn
      simpa using hn
    · rename_i hn
      rw [List.foldr_cons] at h
      obtain ⟨hpart, hrest, hsum⟩ := ih (n := n - l) (by omega)
      refine ⟨by simpa using hpart, by simpa using hrest, ?_⟩
      simp only [List.take_succ_cons, List.foldr_cons]
      omega

theorem foldr_take_add_getD_le (ls : List Nat) (i : Nat) :
    (ls.take i).foldr (· + ·) 0 + ls.getD i 0 ≤ ls.foldr (· + ·) 0 := by
  induction ls generalizing i with
  | nil => simp
  | cons l ls ih =>
    cases i with
    | zero => simp
    | succ i =>
      have hrest := ih i
      simp only [List.take_succ_cons, List.foldr_cons, List.getD_cons_succ]
      omega

theorem dayNumber_bounds {d : Date} (h : d.isValid = true) :
    daysBeforeYear d.year ≤ d.dayNumber ∧ d.dayNumber < daysBeforeYear (d.year + 1) := by
  have hmonth := foldr_take_add_getD_le (monthLengths (isLeapYear d.year)) (d.month - 1)
  rw [foldr_monthLengths] at hmonth
  simp only [isValid, Bool.and_eq_true, decide_eq_true_eq] at h
  rw [daysBeforeYear_succ, dayNumber, daysBeforeMonth]
  omega

theorem ofDayNumber_spec (n : Int) :
    (ofDayNumber n).isValid = true ∧ (ofDayNumber n).dayNumber = n := by
  obtain ⟨hfirst, hlast⟩ := daysBeforeYear_yearOf_le n
  rw [daysBeforeYear_succ] at hlast
  have hday : (n - daysBeforeYear (yearOf n)).toNat <
      (monthLengths (isLeapYear (yearOf n))).foldr (· + ·) 0 := by
    rw [foldr_monthLengths]
    omega
  obtain ⟨hmonth, hlength, hsum⟩ := locate_spec hday
  have htwelve : (monthLengths (isLeapYear (yearOf n))).length = 12 := rfl
  constructor
  · simp only [isValid, Bool.and_eq_true, decide_eq_true_eq]
    simp only [ofDayNumber, Nat.add_sub_cancel]
    omega
  · simp only [dayNumber, ofDayNumber, daysBeforeMonth, Nat.add_sub_cancel]
    omega

theorem daysBeforeYear_mono {y z : Int} (h : y ≤ z) : daysBeforeYear y ≤ daysBeforeYear z := by
  unfold daysBeforeYear
  omega

theorem daysBeforeYear_succ_ge (y : Int) : daysBeforeYear y + 365 ≤ daysBeforeYear (y + 1) := by
  rw [daysBeforeYear_succ, daysInYear]
  split <;> omega

theorem yearOf_bounds {n y : Int} (hlow : daysBeforeYear y - 2 ≤ n)
    (hhigh : n < daysBeforeYear (y + 1) + 2) : y - 1 ≤ yearOf n ∧ yearOf n ≤ y + 1 := by
  obtain ⟨hle, hlt⟩ := daysBeforeYear_yearOf_le n
  constructor
  · refine Int.not_lt.1 fun h => ?_
    have hmono := daysBeforeYear_mono (show yearOf n + 1 ≤ y - 1 by omega)
    have hyear := daysBeforeYear_succ_ge (y - 1)
    rw [Int.sub_add_cancel] at hyear
    omega
  · refine Int.not_lt.1 fun h => ?_
    have hmono := daysBeforeYear_mono (show y + 1 + 1 ≤ yearOf n by omega)
    have hyear := daysBeforeYear_succ_ge (y + 1)
    omega

end Date

namespace Instant

theorem isValid_clockTime (t : Instant) (ahead : Int) : (t.clockTime ahead).isValid = true := by
  have hnanos := t.nanos_lt
  have hdate := (Date.ofDayNumber_spec ((t.seconds + ahead) / 86400 + Date.unixEpoch)).1
  simp only [ClockTime.isValid, Bool.and_eq_true, decide_eq_true_eq]
  refine ⟨⟨⟨⟨hdate, ?_⟩, ?_⟩, ?_⟩, ?_⟩ <;> simp only [clockTime] <;> omega

/-- What a clock shows at an instant is shown at that instant only. -/
theorem instant?_clockTime (t : Instant) (minutes : Int) :
    (t.clockTime (60 * minutes)).instant? minutes = some t := by
  have hvalid := isValid_clockTime t (60 * minutes)
  have hnanos := t.nanos_lt
  have hleap := t.leap
  have hday := (Date.ofDayNumber_spec
    ((t.seconds + 60 * minutes) / 86400 + Date.unixEpoch)).2
  have hsecond : (t.clockTime (60 * minutes)).second ≤ 60 := by
    simp only [clockTime]
    omega
  have hfraction : (t.clockTime (60 * minutes)).nanos < 1000000000 := Nat.mod_lt _ (by decide)
  have hsixty : (t.clockTime (60 * minutes)).second = 60 ↔ 1000000000 ≤ t.nanos := by
    simp only [clockTime]
    omega
  have hseconds : (t.clockTime (60 * minutes)).seconds - 60 * minutes = t.seconds := by
    simp only [ClockTime.seconds, clockTime, hday]
    omega
  have hsum : (t.clockTime (60 * minutes)).nanos +
      (if (t.clockTime (60 * minutes)).second = 60 then 1000000000 else 0) = t.nanos := by
    simp only [hsixty]
    simp only [clockTime]
    split <;> omega
  rw [ClockTime.instant?, dif_pos ⟨hsecond, hfraction, hvalid⟩]
  simp only [hseconds, hsum]

theorem instant?_clockTime_utc (t : Instant) : (t.clockTime 0).instant? 0 = some t :=
  instant?_clockTime t 0

end Instant

namespace ClockTime

theorem bounds_of_isValid {c : ClockTime} (h : c.isValid = true) :
    (c.date.month < 100 ∧ c.date.day < 100) ∧
      (c.hour < 100 ∧ c.minute < 100 ∧ c.second < 100) ∧ c.nanos < 1000000000 := by
  have hlength := Date.getD_monthLengths_le (Date.isLeapYear c.date.year) (c.date.month - 1)
  simp only [isValid, Date.isValid, Bool.and_eq_true, decide_eq_true_eq] at h
  omega

theorem instant?_spec {c : ClockTime} {minutes : Int} {t : Instant}
    (h : c.instant? minutes = some t) :
    c.isValid = true ∧ t.seconds = c.seconds - 60 * minutes := by
  unfold instant? at h
  split at h
  · rename_i hc
    cases h
    exact ⟨hc.2.2, rfl⟩
  · cases h

/-- A clock that is less than a day ahead or behind shows the year of UTC or one next to it. -/
theorem year_bounds_of_instant? {c : ClockTime} {minutes : Int} {t : Instant}
    (h : c.instant? minutes = some t) (hahead : -1440 < minutes ∧ minutes < 1440) :
    c.date.year - 1 ≤ (t.clockTime 0).date.year ∧ (t.clockTime 0).date.year ≤ c.date.year + 1 := by
  obtain ⟨hvalid, hseconds⟩ := instant?_spec h
  simp only [isValid, Bool.and_eq_true, decide_eq_true_eq] at hvalid
  obtain ⟨⟨⟨⟨hdate, hhour⟩, hminute⟩, -⟩, -⟩ := hvalid
  obtain ⟨hfirst, hlast⟩ := Date.dayNumber_bounds hdate
  rw [seconds] at hseconds
  refine Date.yearOf_bounds (y := c.date.year) ?_ ?_ <;> omega

end ClockTime

def IsStampChar (c : Char) : Prop := c.isDigit = true ∨ c ∈ ['-', '+', '_']

instance : DecidablePred IsStampChar := fun c =>
  inferInstanceAs (Decidable (c.isDigit = true ∨ c ∈ ['-', '+', '_']))

theorem IsStampChar.ne {c d : Char} (hc : IsStampChar c) (hd : ¬IsStampChar d) : c ≠ d := by
  rintro rfl
  exact hd hc

theorem IsStampChar.utf8Size {c : Char} (hc : IsStampChar c) : c.utf8Size = 1 := by
  obtain hdigit | hmark := hc
  · simp only [Char.isDigit, Bool.and_eq_true, decide_eq_true_eq] at hdigit
    exact Char.utf8Size_eq_one_iff.2 (UInt32.le_trans hdigit.2 (by decide))
  · simp only [List.mem_cons, List.not_mem_nil, or_false] at hmark
    obtain rfl | rfl | rfl := hmark <;> rfl

theorem utf8ByteSize_ofList {s : List Char} (h : ∀ c ∈ s, IsStampChar c) :
    (String.ofList s).utf8ByteSize = s.length := by
  induction s with
  | nil => rfl
  | cons c s ih =>
    obtain ⟨hc, hs⟩ := List.forall_mem_cons.1 h
    rw [String.ofList_cons, String.utf8ByteSize_append, String.utf8ByteSize_singleton, ih hs,
      hc.utf8Size, List.length_cons, Nat.add_comm]

namespace ClockTime

theorem isStampChar_of_mem_paddedDecimal {width n : Nat} {c : Char}
    (h : c ∈ Text.paddedDecimal width n) : IsStampChar c :=
  Or.inl (Text.isDigit_of_mem_paddedDecimal h)

theorem isStampChar_of_mem_yearText {y : Int} {c : Char} (h : c ∈ yearText y) : IsStampChar c := by
  unfold yearText at h
  split at h
  · exact isStampChar_of_mem_paddedDecimal h
  · obtain rfl | h := List.mem_cons.1 h
    · right
      split <;> decide
    · exact isStampChar_of_mem_paddedDecimal h

theorem isStampChar_of_mem_dateText {d : Date} {c : Char} (h : c ∈ dateText d) : IsStampChar c := by
  simp only [dateText, twoDigits, List.mem_append, List.mem_cons] at h
  obtain (h | rfl | h) | rfl | h := h
  · exact isStampChar_of_mem_yearText h
  · exact Or.inr (by decide)
  · exact isStampChar_of_mem_paddedDecimal h
  · exact Or.inr (by decide)
  · exact isStampChar_of_mem_paddedDecimal h

theorem isStampChar_of_mem_stamp {t : ClockTime} {c : Char} (h : c ∈ t.stamp) : IsStampChar c := by
  simp only [stamp, twoDigits, List.mem_append, List.mem_cons] at h
  obtain ((h | rfl | h) | h) | h := h
  · exact isStampChar_of_mem_dateText h
  · exact Or.inr (by decide)
  · exact isStampChar_of_mem_paddedDecimal h
  · exact isStampChar_of_mem_paddedDecimal h
  · exact isStampChar_of_mem_paddedDecimal h

theorem stamp_ne_nil (t : ClockTime) : t.stamp ≠ [] := by
  simp [stamp]

end ClockTime

namespace Instant

theorem isStampChar_of_mem_stamp {zone : Zone} {t : Instant} {c : Char}
    (h : c ∈ (t.stamp zone).toList) : IsStampChar c := by
  rw [stamp, String.toList_ofList] at h
  exact ClockTime.isStampChar_of_mem_stamp h

theorem stamp_ne_empty (zone : Zone) (t : Instant) : (t.stamp zone).toList ≠ [] := by
  rw [stamp, String.toList_ofList]
  exact ClockTime.stamp_ne_nil _

theorem utf8ByteSize_stamp (zone : Zone) (t : Instant) :
    (t.stamp zone).utf8ByteSize = (t.stamp zone).toList.length := by
  rw [← utf8ByteSize_ofList fun _ => isStampChar_of_mem_stamp, String.ofList_toList]

end Instant
end RenderFarm

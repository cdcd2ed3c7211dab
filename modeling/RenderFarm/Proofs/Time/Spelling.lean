import Mathlib.Algebra.Order.Floor.Semifield
import Mathlib.Data.Rat.Floor
import RenderFarm.Proofs.Time.Chronology
import RenderFarm.Proofs.Time.Rfc3339

/-! Times as they are written. A spelling is a text in the format, taken apart; it tells an instant
with a fraction of any length, to which its mark, the case of its letters, its offset and the zeros
at the end of its fraction add nothing. Reading accepts just the spellings, and gives the instant
that is told up to whole nanoseconds. -/
namespace RenderFarm

open ClockTime

namespace Rfc3339

/-- An offset from UTC: a letter, or hours and minutes behind a sign. -/
inductive Offset where
  | letter (c : Char) (isLetter : c = 'Z' ∨ c = 'z')
  | signed (sign : Char) (hours minutes : Nat)
      (isSign : sign = '+' ∨ sign = '-' ∨ sign = '\u2212') (isTime : hours < 24 ∧ minutes < 60)

namespace Offset

def toList : Offset → List Char
  | letter c _ => [c]
  | signed sign hours minutes _ _ => sign :: twoDigits hours ++ ':' :: twoDigits minutes

/-- The minutes that a clock is ahead of UTC. -/
def ahead : Offset → Int
  | letter _ _ => 0
  | signed sign hours minutes _ _ => (if sign = '+' then 1 else -1) * (60 * hours + minutes)

end Offset

def pointed : List Char → List Char
  | [] => []
  | ds => '.' :: ds

/-- The part of a second that digits behind a point tell. -/
def fractionValue (ds : List Char) : ℚ := (Nat.ofDigitChars 10 ds 0 : ℚ) / 10 ^ ds.length

def nanosOf (ds : List Char) : Nat :=
  Nat.ofDigitChars 10 (ds.take 9) 0 * Nat.pow 10 (9 - (ds.take 9).length)

/-- A text in the format, taken apart. -/
structure Spelling where
  date : Date
  mark : Char
  hour : Nat
  minute : Nat
  second : Nat
  fraction : List Char
  offset : Offset
  plainYear : date.HasPlainYear
  isMark : mark = 'T' ∨ mark = 't' ∨ mark = ' '
  isDigit : ∀ c ∈ fraction, c.isDigit = true
  isValid : (ClockTime.mk date hour minute second 0).isValid = true

/-- An instant as it is told: whole seconds since the start of 1970 in UTC, whether they are
followed by a leap second that has begun, and a part of the second. -/
@[ext]
structure Moment where
  seconds : Int
  isLeap : Bool
  fraction : ℚ

namespace Moment

/-- The instant is the one that is told, up to whole nanoseconds. -/
def IsReadAs (m : Moment) (t : Instant) : Prop :=
  t.seconds = m.seconds ∧
    t.nanos = ⌊m.fraction * 1000000000⌋₊ + if m.isLeap then 1000000000 else 0

end Moment

namespace Spelling

def toList (w : Spelling) : List Char :=
  dateText w.date ++ w.mark :: twoDigits w.hour ++ ':' :: twoDigits w.minute ++
    ':' :: twoDigits w.second ++ pointed w.fraction ++ w.offset.toList

/-- What the clock shows that the text is about, in whole seconds. -/
def clock (w : Spelling) : ClockTime := ⟨w.date, w.hour, w.minute, w.second, 0⟩

def moment (w : Spelling) : Moment where
  seconds := w.clock.seconds - 60 * w.offset.ahead
  isLeap := w.second = 60
  fraction := fractionValue w.fraction

end Spelling

/-- The text is in the format, and this is what it tells. -/
def Tells (text : String) (m : Moment) : Prop :=
  ∃ w : Spelling, text.toList = w.toList ∧ w.moment = m

theorem ofDigitChars_append (u v : List Char) :
    Nat.ofDigitChars 10 (u ++ v) 0 =
      10 ^ v.length * Nat.ofDigitChars 10 u 0 + Nat.ofDigitChars 10 v 0 := by
  rw [Nat.ofDigitChars_append, Nat.ofDigitChars_eq_ofDigitChars_zero]

theorem nanosOf_eq_floor {ds : List Char} (h : ∀ c ∈ ds, c.isDigit = true) :
    nanosOf ds = ⌊fractionValue ds * 1000000000⌋₊ := by
  have hquotient : fractionValue ds * 1000000000 =
      ((Nat.ofDigitChars 10 ds 0 * 10 ^ 9 : Nat) : ℚ) / (10 ^ ds.length : Nat) := by
    rw [fractionValue, div_mul_eq_mul_div]
    push_cast
    norm_num
  rw [hquotient, Nat.floor_div_eq_div, nanosOf, Nat.pow_eq]
  rcases Nat.le_total ds.length 9 with hshort | hlong
  · have hunits : 10 ^ 9 = 10 ^ (9 - ds.length) * 10 ^ ds.length := by
      rw [← Nat.pow_add, Nat.sub_add_cancel hshort]
    rw [List.take_of_length_le hshort, hunits, ← Nat.mul_assoc,
      Nat.mul_div_cancel _ (Nat.pow_pos (by decide))]
  · have hnine : (ds.take 9).length = 9 := by simpa using hlong
    have hrest : Nat.ofDigitChars 10 (ds.drop 9) 0 < 10 ^ (ds.drop 9).length :=
      Text.ofDigitChars_lt fun c hc => h c (List.mem_of_mem_drop hc)
    have hunits : 10 ^ ds.length = 10 ^ (ds.drop 9).length * 10 ^ 9 := by
      rw [← Nat.pow_add, List.length_drop, Nat.sub_add_cancel hlong]
    rw [hnine, hunits, Nat.mul_div_mul_right _ _ (Nat.pow_pos (by decide))]
    nth_rewrite 2 [← List.take_append_drop 9 ds]
    rw [ofDigitChars_append, Nat.mul_add_div (Nat.pow_pos (by decide)), Nat.div_eq_of_lt hrest]
    simp

theorem fractionValue_append_zero (ds : List Char) :
    fractionValue (ds ++ ['0']) = fractionValue ds := by
  have hvalue : Nat.ofDigitChars 10 (ds ++ ['0']) 0 = 10 * Nat.ofDigitChars 10 ds 0 :=
    ofDigitChars_append ds ['0']
  rw [fractionValue, fractionValue, hvalue, List.length_append, List.length_singleton, pow_succ']
  push_cast
  exact mul_div_mul_left _ _ (by norm_num)

theorem digits?_paddedDecimal {width n : Nat} (hw : 0 < width) (h : n < Nat.pow 10 width)
    (r : List Char) : digits? width (Text.paddedDecimal width n ++ r) = some (n, r) := by
  have hlength := Text.length_paddedDecimal hw h
  have htake : (Text.paddedDecimal width n ++ r).take width = Text.paddedDecimal width n :=
    List.take_left' hlength
  have hdigits : (Text.paddedDecimal width n).all Char.isDigit = true :=
    List.all_eq_true.2 fun _ => Text.isDigit_of_mem_paddedDecimal
  simp only [digits?, htake, hlength, hdigits, and_self, if_true, Text.ofDigitChars_paddedDecimal,
    List.drop_left' hlength]

theorem digits?_twoDigits {n : Nat} (h : n < 100) (r : List Char) :
    digits? 2 (twoDigits n ++ r) = some (n, r) :=
  digits?_paddedDecimal (by decide) h r

theorem eq_paddedDecimal_of_digits? {width n : Nat} (hw : 0 < width) {s r : List Char}
    (h : digits? width s = some (n, r)) : s = Text.paddedDecimal width n ++ r := by
  simp only [digits?, Option.ite_none_right_eq_some, Option.some.injEq, Prod.mk.injEq] at h
  obtain ⟨⟨hlength, hdigits⟩, rfl, rfl⟩ := h
  have hne : s.take width ≠ [] := by
    intro hnil
    rw [hnil, List.length_nil] at hlength
    omega
  have hread := Text.paddedDecimal_ofDigitChars hne (List.all_eq_true.1 hdigits)
  rw [hlength] at hread
  rw [hread, List.take_append_drop]

theorem eq_cons_of_after? {c : Char} {s r : List Char} (h : after? c s = some r) : s = c :: r := by
  cases s with
  | nil => cases h
  | cons d s =>
    simp only [after?, Option.ite_none_right_eq_some, Option.some.injEq] at h
    rw [h.1, h.2]

theorem exists_mark_of_afterMark? {s r : List Char} (h : afterMark? s = some r) :
    ∃ mark, (mark = 'T' ∨ mark = 't' ∨ mark = ' ') ∧ s = mark :: r := by
  cases s with
  | nil => cases h
  | cons c s =>
    simp only [afterMark?, Option.ite_none_right_eq_some, Option.some.injEq] at h
    exact ⟨c, h.1, by rw [h.2]⟩

theorem pointed_of_ne_nil {ds : List Char} (h : ds ≠ []) : pointed ds = '.' :: ds := by
  cases ds with
  | nil => exact absurd rfl h
  | cons d ds => rfl

theorem fraction?_pointed {ds : List Char} (hds : ∀ c ∈ ds, c.isDigit = true) {c : Char}
    (hc : c.isDigit = false) (hpoint : c ≠ '.') (r : List Char) :
    fraction? (pointed ds ++ c :: r) = some (nanosOf ds, c :: r) := by
  cases ds with
  | nil => simp [pointed, fraction?, hpoint, nanosOf]
  | cons d ds =>
    have htake : (d :: ds ++ c :: r).takeWhile Char.isDigit = d :: ds := by
      rw [List.takeWhile_append_of_pos hds]
      simp [hc]
    have hdrop : (d :: ds ++ c :: r).dropWhile Char.isDigit = c :: r := by
      rw [List.dropWhile_append_of_pos hds]
      simp [hc]
    rw [pointed_of_ne_nil (List.cons_ne_nil d ds), List.cons_append, fraction?, htake]
    split
    · rename_i hnil
      cases hnil
    · rw [hdrop]
      rfl

theorem exists_pointed_of_fraction? {s r : List Char} {nanos : Nat}
    (h : fraction? s = some (nanos, r)) :
    ∃ ds, (∀ c ∈ ds, c.isDigit = true) ∧ s = pointed ds ++ r := by
  unfold fraction? at h
  split at h
  · rename_i rest
    split at h
    · cases h
    · rename_i hne
      simp only [Option.some.injEq, Prod.mk.injEq] at h
      refine ⟨rest.takeWhile Char.isDigit, fun c hc => List.mem_takeWhile_imp hc, ?_⟩
      rw [← h.2, pointed_of_ne_nil hne, List.cons_append, List.takeWhile_append_dropWhile]
  · cases h
    exact ⟨[], by simp, rfl⟩

theorem offset?_of_ne {s : List Char} (h : ∀ r, s ≠ 'Z' :: r ∧ s ≠ 'z' :: r) :
    offset? (after? ':') s = (do
      let (sign, r) ← sign? s
      let (hours, r) ← digits? 2 r
      let r ← after? ':' r
      let (minutes, r) ← digits? 2 r
      if hours < 24 ∧ minutes < 60 then some (sign * (60 * hours + minutes), r) else none) := by
  unfold offset?
  split
  · exact absurd rfl (h _).1
  · exact absurd rfl (h _).2
  · rfl

theorem sign?_cons {sign : Char} (h : sign = '+' ∨ sign = '-' ∨ sign = '\u2212') (r : List Char) :
    sign? (sign :: r) = some (if sign = '+' then 1 else -1, r) := by
  rcases h with rfl | rfl | rfl <;> rfl

theorem exists_sign_of_sign? {s r : List Char} {n : Int} (h : sign? s = some (n, r)) :
    ∃ sign, (sign = '+' ∨ sign = '-' ∨ sign = '\u2212') ∧ s = sign :: r := by
  cases s with
  | nil => cases h
  | cons c s =>
    simp only [sign?] at h
    split at h
    · rename_i hplus
      cases h
      exact ⟨c, .inl hplus, rfl⟩
    · simp only [Option.ite_none_right_eq_some, Option.some.injEq, Prod.mk.injEq] at h
      obtain ⟨hminus, -, rfl⟩ := h
      exact ⟨c, .inr hminus, rfl⟩

theorem offset?_toList (o : Offset) : offset? (after? ':') o.toList = some (o.ahead, []) := by
  cases o with
  | letter c isLetter => rcases isLetter with rfl | rfl <;> rfl
  | signed sign hours minutes isSign isTime =>
    have hne : ∀ r, (Offset.signed sign hours minutes isSign isTime).toList ≠ 'Z' :: r ∧
        (Offset.signed sign hours minutes isSign isTime).toList ≠ 'z' :: r := by
      intro r
      rcases isSign with rfl | rfl | rfl <;> simp [Offset.toList]
    have hminutes : digits? 2 (twoDigits minutes) = some (minutes, []) := by
      have hread := digits?_twoDigits (show minutes < 100 by omega) []
      rwa [List.append_nil] at hread
    rw [offset?_of_ne hne, Offset.toList, List.cons_append, sign?_cons isSign]
    dsimp only [Option.bind_eq_bind, Option.bind_some]
    rw [digits?_twoDigits (by omega)]
    dsimp only [Option.bind_some]
    rw [after?_cons_self, Option.bind_some, hminutes]
    exact if_pos isTime

theorem exists_offset_of_offset? {s r : List Char} {minutes : Int}
    (h : offset? (after? ':') s = some (minutes, r)) : ∃ o : Offset, s = o.toList ++ r := by
  unfold offset? at h
  split at h
  · cases h
    exact ⟨.letter 'Z' (.inl rfl), rfl⟩
  · cases h
    exact ⟨.letter 'z' (.inr rfl), rfl⟩
  · simp only [Option.bind_eq_bind, Option.bind_eq_some_iff, Option.ite_none_right_eq_some,
      Option.some.injEq, Prod.mk.injEq] at h
    obtain ⟨⟨sign, r₁⟩, hsign, ⟨hours, r₂⟩, hhours, r₃, hcolon, ⟨rest, r₄⟩, hminutes, htime, -,
      rfl⟩ := h
    obtain ⟨c, hc, rfl⟩ := exists_sign_of_sign? hsign
    obtain rfl := eq_cons_of_after? hcolon
    have hhours := eq_paddedDecimal_of_digits? (by decide) hhours
    have hminutes := eq_paddedDecimal_of_digits? (by decide) hminutes
    refine ⟨.signed c hours rest hc htime, ?_⟩
    simp only at hhours hminutes
    simp only [hhours, hminutes, Offset.toList, twoDigits, List.cons_append, List.append_assoc]

theorem afterMark?_of_isMark {mark : Char} (h : mark = 'T' ∨ mark = 't' ∨ mark = ' ')
    (r : List Char) : afterMark? (mark :: r) = some r :=
  if_pos h

theorem read?_of_parts {c : ClockTime} (h : c.isValid = true) (hyear : c.date.HasPlainYear)
    {mark : Char} (hmark : mark = 'T' ∨ mark = 't' ∨ mark = ' ') {fraction offset : List Char}
    (hfraction : fraction? (fraction ++ offset) = some (c.nanos, offset)) {minutes : Int}
    (hoffset : offset? (after? ':') offset = some (minutes, [])) :
    read? (String.ofList (dateText c.date ++ mark :: twoDigits c.hour ++ ':' ::
      twoDigits c.minute ++ ':' :: twoDigits c.second ++ fraction ++ offset)) =
        c.instant? minutes := by
  obtain ⟨⟨hmonth, hday⟩, ⟨hhour, hminute, hsecond⟩, -⟩ := bounds_of_isValid h
  have hfour : c.date.year.toNat < Nat.pow 10 4 := by
    have hpow : Nat.pow 10 4 = 10000 := rfl
    have hbounds := hyear.2
    omega
  have htext : dateText c.date ++ mark :: twoDigits c.hour ++ ':' :: twoDigits c.minute ++
      ':' :: twoDigits c.second ++ fraction ++ offset =
      Text.paddedDecimal 4 c.date.year.toNat ++ '-' :: (twoDigits c.date.month ++
        '-' :: (twoDigits c.date.day ++ mark :: (twoDigits c.hour ++ ':' :: (twoDigits c.minute ++
          ':' :: (twoDigits c.second ++ (fraction ++ offset)))))) := by
    simp only [dateText, yearText_of_hasPlainYear hyear, List.append_assoc, List.cons_append]
  rw [read?, String.toList_ofList, htext, digits?_paddedDecimal (by decide) hfour]
  dsimp only [Option.bind_eq_bind, Option.bind_some]
  rw [after?_cons_self, Option.bind_some, digits?_twoDigits hmonth]
  dsimp only [Option.bind_some]
  rw [after?_cons_self, Option.bind_some, digits?_twoDigits hday]
  dsimp only [Option.bind_some]
  rw [afterMark?_of_isMark hmark, Option.bind_some, digits?_twoDigits hhour]
  dsimp only [Option.bind_some]
  rw [after?_cons_self, Option.bind_some, digits?_twoDigits hminute]
  dsimp only [Option.bind_some]
  rw [after?_cons_self, Option.bind_some, digits?_twoDigits hsecond]
  dsimp only [Option.bind_some]
  rw [hfraction]
  dsimp only [Option.bind_some]
  rw [hoffset]
  dsimp only [Option.bind_some]
  rw [Int.toNat_of_nonneg hyear.1]
  exact if_pos rfl

theorem read?_toRfc3339 {t : Instant} (h : (t.clockTime 0).date.HasPlainYear) :
    read? t.toRfc3339 = some t := by
  have hvalid := Instant.isValid_clockTime t 0
  have hnanos := (bounds_of_isValid hvalid).2.2
  rw [Instant.toRfc3339, utcText,
    read?_of_parts hvalid h (.inl rfl) (fraction?_fractionText hnanos) rfl,
    Instant.instant?_clockTime_utc]

theorem nanosOf_lt {ds : List Char} (h : ∀ c ∈ ds, c.isDigit = true) :
    nanosOf ds < 1000000000 := by
  have hlength : (ds.take 9).length ≤ 9 := List.length_take_le _ _
  have hlt : Nat.ofDigitChars 10 (ds.take 9) 0 < Nat.pow 10 (ds.take 9).length :=
    Text.ofDigitChars_lt fun c hc => h c (List.mem_of_mem_take hc)
  calc nanosOf ds
      < Nat.pow 10 (ds.take 9).length * Nat.pow 10 (9 - (ds.take 9).length) :=
        Nat.mul_lt_mul_of_pos_right hlt (Nat.pow_pos (by decide))
    _ = 10 ^ 9 := by rw [Nat.pow_eq, Nat.pow_eq, ← Nat.pow_add, Nat.add_sub_cancel' hlength]

theorem Offset.exists_toList_eq_cons (o : Offset) :
    ∃ c r, o.toList = c :: r ∧ c.isDigit = false ∧ c ≠ '.' := by
  cases o with
  | letter c isLetter => exact ⟨c, [], rfl, by rcases isLetter with rfl | rfl <;> decide⟩
  | signed sign _ _ isSign _ =>
    exact ⟨sign, _, rfl, by rcases isSign with rfl | rfl | rfl <;> decide⟩

theorem Moment.IsReadAs.unique {m : Moment} {t u : Instant} (ht : m.IsReadAs t)
    (hu : m.IsReadAs u) : t = u := by
  cases t
  cases u
  obtain ⟨hseconds, hnanos⟩ := ht
  obtain ⟨hseconds', hnanos'⟩ := hu
  simp only at hseconds hnanos hseconds' hnanos'
  subst hseconds hnanos hseconds' hnanos'
  rfl

namespace Spelling

def readClock (w : Spelling) : ClockTime := { w.clock with nanos := nanosOf w.fraction }

theorem isValid_readClock (w : Spelling) : w.readClock.isValid = true := by
  have hvalid := w.isValid
  have hnanos := nanosOf_lt w.isDigit
  simp only [ClockTime.isValid, Bool.and_eq_true, decide_eq_true_eq] at hvalid ⊢
  exact ⟨hvalid.1, hnanos⟩

theorem exists_instant? (w : Spelling) :
    ∃ t, w.readClock.instant? w.offset.ahead = some t ∧ w.moment.IsReadAs t := by
  have hvalid := w.isValid_readClock
  have hbounds := hvalid
  simp only [ClockTime.isValid, Bool.and_eq_true, decide_eq_true_eq] at hbounds
  rw [ClockTime.instant?, dif_pos ⟨hbounds.1.2, hbounds.2, hvalid⟩]
  refine ⟨_, rfl, rfl, ?_⟩
  simp only [moment, decide_eq_true_eq, ← nanosOf_eq_floor w.isDigit]
  rfl

theorem exists_read?_toList (w : Spelling) :
    ∃ t, read? (String.ofList w.toList) = some t ∧ w.moment.IsReadAs t := by
  obtain ⟨t, ht, hread⟩ := w.exists_instant?
  obtain ⟨c, r, hoffset, hdigit, hpoint⟩ := w.offset.exists_toList_eq_cons
  have hfraction : fraction? (pointed w.fraction ++ w.offset.toList) =
      some (nanosOf w.fraction, w.offset.toList) := by
    rw [hoffset, fraction?_pointed w.isDigit hdigit hpoint]
  refine ⟨t, ?_, hread⟩
  rw [← ht]
  exact read?_of_parts w.isValid_readClock w.plainYear w.isMark hfraction
    (offset?_toList w.offset)

end Spelling

theorem exists_spelling_of_read? {text : String} {t : Instant} (h : read? text = some t) :
    ∃ w : Spelling, text.toList = w.toList := by
  obtain ⟨⟨year, r₁⟩, hyear, h⟩ := Option.bind_eq_some_iff.1 h
  obtain ⟨_, hhyphen, h⟩ := Option.bind_eq_some_iff.1 h
  obtain ⟨⟨month, r₂⟩, hmonth, h⟩ := Option.bind_eq_some_iff.1 h
  obtain ⟨_, hhyphen', h⟩ := Option.bind_eq_some_iff.1 h
  obtain ⟨⟨day, r₃⟩, hday, h⟩ := Option.bind_eq_some_iff.1 h
  obtain ⟨_, hmark, h⟩ := Option.bind_eq_some_iff.1 h
  obtain ⟨⟨hour, r₄⟩, hhour, h⟩ := Option.bind_eq_some_iff.1 h
  obtain ⟨_, hcolon, h⟩ := Option.bind_eq_some_iff.1 h
  obtain ⟨⟨minute, r₅⟩, hminute, h⟩ := Option.bind_eq_some_iff.1 h
  obtain ⟨_, hcolon', h⟩ := Option.bind_eq_some_iff.1 h
  obtain ⟨⟨second, r₆⟩, hsecond, h⟩ := Option.bind_eq_some_iff.1 h
  obtain ⟨⟨nanos, r₇⟩, hfraction, h⟩ := Option.bind_eq_some_iff.1 h
  obtain ⟨⟨minutes, r₈⟩, hoffset, h⟩ := Option.bind_eq_some_iff.1 h
  obtain ⟨hend, hinstant⟩ := Option.ite_none_right_eq_some.1 h
  obtain ⟨mark, isMark, hmark⟩ := exists_mark_of_afterMark? hmark
  obtain ⟨ds, isDigit, hds⟩ := exists_pointed_of_fraction? hfraction
  obtain ⟨o, ho⟩ := exists_offset_of_offset? hoffset
  have hplain : Date.HasPlainYear ⟨year, month, day⟩ := by
    have hfour : year < 10000 := digits?_lt hyear
    exact ⟨Int.natCast_nonneg year, by simp only; omega⟩
  have hvalid := (instant?_spec hinstant).1
  simp only [ClockTime.isValid, Bool.and_eq_true, decide_eq_true_eq] at hvalid
  refine ⟨{ date := ⟨year, month, day⟩, mark, hour, minute, second, fraction := ds, offset := o
            plainYear := hplain, isMark, isDigit, isValid := ?_ }, ?_⟩
  · simp only [ClockTime.isValid, Bool.and_eq_true, decide_eq_true_eq]
    exact ⟨hvalid.1, by decide⟩
  · have hyear := eq_paddedDecimal_of_digits? (by decide) hyear
    have hmonth := eq_paddedDecimal_of_digits? (by decide) hmonth
    have hday := eq_paddedDecimal_of_digits? (by decide) hday
    have hhour := eq_paddedDecimal_of_digits? (by decide) hhour
    have hminute := eq_paddedDecimal_of_digits? (by decide) hminute
    have hsecond := eq_paddedDecimal_of_digits? (by decide) hsecond
    rw [hyear, eq_cons_of_after? hhyphen, hmonth, eq_cons_of_after? hhyphen', hday, hmark, hhour,
      eq_cons_of_after? hcolon, hminute, eq_cons_of_after? hcolon', hsecond, hds, ho,
      List.isEmpty_iff.1 hend]
    simp only [Spelling.toList, dateText, yearText_of_hasPlainYear hplain, twoDigits,
      Int.toNat_natCast, List.append_nil, List.append_assoc, List.cons_append]

theorem Tells.exists_read? {text : String} {m : Moment} (h : Tells text m) :
    ∃ t, read? text = some t ∧ m.IsReadAs t := by
  obtain ⟨w, hw, rfl⟩ := h
  rw [← String.ofList_toList (s := text), hw]
  exact w.exists_read?_toList

/-- Reading accepts just the texts in the format and gives the instants that they tell. -/
theorem read?_eq_some_iff {text : String} {t : Instant} :
    read? text = some t ↔ ∃ m, Tells text m ∧ m.IsReadAs t := by
  constructor
  · intro h
    obtain ⟨w, hw⟩ := exists_spelling_of_read? h
    have htells : Tells text w.moment := ⟨w, hw, rfl⟩
    obtain ⟨u, hu, hmoment⟩ := htells.exists_read?
    obtain rfl : t = u := Option.some.inj (h.symm.trans hu)
    exact ⟨w.moment, htells, hmoment⟩
  · rintro ⟨m, htells, hmoment⟩
    obtain ⟨u, hu, hmoment'⟩ := htells.exists_read?
    rw [hu, hmoment.unique hmoment']

end Rfc3339
end RenderFarm

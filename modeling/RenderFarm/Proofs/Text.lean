import Mathlib.Data.List.TakeWhile
import RenderFarm.Text

/-! Marks and numerals in texts, and the order of texts. A text is cut at the first place where a
mark stands, and a text without the mark is not cut at all; numerals hold digits, so that no mark
stands in them. A numeral that is padded to a width has that width and is read as the number that it
was written for. Of two texts with the same start the rest decides their lexicographic order, and of
two with starts of one length the starts decide unless they are equal. -/
namespace RenderFarm
namespace Text

variable {mark : Char} {s : List Char}

theorem forall_bne_of_not_mem (h : mark ∉ s) : ∀ c ∈ s, (c != mark) = true := by
  intro c hc
  rw [bne_iff_ne]
  rintro rfl
  exact h hc

theorem takeWhile_bne_of_not_mem (h : mark ∉ s) : s.takeWhile (· != mark) = s :=
  List.takeWhile_eq_self_iff.2 (forall_bne_of_not_mem h)

theorem dropWhile_bne_of_not_mem (h : mark ∉ s) : s.dropWhile (· != mark) = [] :=
  List.dropWhile_eq_nil_iff.2 (forall_bne_of_not_mem h)

theorem takeWhile_bne_append_cons (h : mark ∉ s) (t : List Char) :
    (s ++ mark :: t).takeWhile (· != mark) = s := by
  rw [List.takeWhile_append_of_pos (forall_bne_of_not_mem h)]
  simp

theorem dropWhile_bne_append_cons (h : mark ∉ s) (t : List Char) :
    (s ++ mark :: t).dropWhile (· != mark) = mark :: t := by
  rw [List.dropWhile_append_of_pos (forall_bne_of_not_mem h)]
  simp

theorem not_mem_of_all_isDigit (h : ∀ c ∈ s, c.isDigit = true) (hm : mark.isDigit = false) :
    mark ∉ s := by
  intro hs
  rw [h mark hs] at hm
  exact Bool.noConfusion hm

theorem not_mem_decimal (hm : mark.isDigit = false) (n : Nat) : mark ∉ decimal n :=
  not_mem_of_all_isDigit (fun _ hc => isDigit_of_mem_decimal hc) hm

theorem isDigit_of_mem_paddedDecimal {width n : Nat} {c : Char} (h : c ∈ paddedDecimal width n) :
    c.isDigit = true := by
  obtain hc | hc := List.mem_append.1 h
  · rw [List.eq_of_mem_replicate hc]
    rfl
  · exact isDigit_of_mem_decimal hc

/-- The lines of a text. What follows the last line break is one, unless it is empty. -/
def lines (s : String) : List String :=
  let parts := s.toList.splitOnP (· == '\n')
  (if parts.getLast? = some [] then parts.dropLast else parts).map String.ofList

theorem splitOnP_flatMap_concat {ls : List (List Char)} (h : ∀ l ∈ ls, mark ∉ l) :
    (ls.flatMap (· ++ [mark])).splitOnP (· == mark) = ls ++ [[]] := by
  induction ls with
  | nil => simp
  | cons l ls ih =>
    obtain ⟨hl, hls⟩ := List.forall_mem_cons.1 h
    have hfree : ∀ c ∈ l, (c == mark) = false :=
      fun c hc => beq_false_of_ne fun heq => hl (heq ▸ hc)
    rw [List.flatMap_cons, List.append_assoc, List.singleton_append,
      List.splitOnP_append_cons_of_forall_mem hfree _ (beq_self_eq_true mark), ih hls,
      List.cons_append]

theorem lines_join {ls : List String} (h : ∀ l ∈ ls, '\n' ∉ l.toList) :
    lines (String.join (ls.map (· ++ "\n"))) = ls := by
  have hchars : (String.join (ls.map (· ++ "\n"))).toList =
      (ls.map String.toList).flatMap (· ++ ['\n']) := by
    simp [String.toList_join, List.flatMap_map]
  have hfree : ∀ l ∈ ls.map String.toList, '\n' ∉ l := by simpa using h
  rw [lines, hchars]
  simp [splitOnP_flatMap_concat hfree]

end Text

namespace Text

theorem isBlank_of_isDigit {c : Char} (h : c.isDigit = true) : isBlank c = false := by
  have hcode : 48 ≤ c.toNat ∧ c.toNat ≤ 57 := by
    simp only [Char.isDigit, Bool.and_eq_true, decide_eq_true_eq] at h
    exact h
  simp only [isBlank, inRanges, blankRanges, List.any_cons, List.any_nil, Bool.or_false,
    Bool.or_eq_false_iff, Bool.and_eq_false_iff, decide_eq_false_iff_not]
  omega

theorem isNumeral_decimal (n : Nat) : IsNumeral (decimal n) :=
  ⟨Nat.toDigits_ne_nil, fun _ => isDigit_of_mem_decimal⟩

@[simp] theorem ofDigitChars_decimal (n : Nat) : Nat.ofDigitChars 10 (decimal n) 0 = n :=
  Nat.ofDigitChars_ten_toDigits

theorem head?_decimal_ne {n : Nat} (hn : n ≠ 0) : (decimal n).head? ≠ some '0' := by
  induction n using Nat.strongRecOn with
  | _ n ih =>
    rw [decimal, Nat.toDigits_eq_if (by decide)]
    split
    · rename_i hlt
      have hdigits : ∀ k < 10, k ≠ 0 → [Nat.digitChar k].head? ≠ some '0' := by decide
      exact hdigits n hlt hn
    · have hquotient := ih (n / 10) (by omega) (by omega)
      rwa [List.head?_append, Option.or_of_isSome (by simp)]

theorem decimal_inj {m n : Nat} : decimal m = decimal n ↔ m = n := by
  constructor
  · intro h
    have hread := congrArg readDecimal? h
    simpa using hread
  · rintro rfl
    rfl

/-- A numeral ends at the first character that is no digit. -/
theorem decimal_append_cons_inj {mark : Char} (hmark : mark.isDigit = false) {m n : Nat}
    {s t : List Char} (h : decimal m ++ mark :: s = decimal n ++ mark :: t) : m = n ∧ s = t := by
  have hnot := fun k => not_mem_decimal hmark k
  have hnumber := congrArg (List.takeWhile (· != mark)) h
  rw [takeWhile_bne_append_cons (hnot m), takeWhile_bne_append_cons (hnot n)] at hnumber
  have hrest := congrArg (List.dropWhile (· != mark)) h
  rw [dropWhile_bne_append_cons (hnot m), dropWhile_bne_append_cons (hnot n)] at hrest
  exact ⟨decimal_inj.1 hnumber, (List.cons.inj hrest).2⟩

theorem paddedDecimal_ne_nil (width n : Nat) : paddedDecimal width n ≠ [] := by
  simp [paddedDecimal, decimal]

theorem length_paddedDecimal {width n : Nat} (hw : 0 < width) (h : n < Nat.pow 10 width) :
    (paddedDecimal width n).length = width := by
  have hlength : (decimal n).length ≤ width := (Nat.length_toDigits_le_iff (by decide) hw).2 h
  simp only [paddedDecimal, List.length_append, List.length_replicate]
  omega

@[simp] theorem ofDigitChars_paddedDecimal (width n : Nat) :
    Nat.ofDigitChars 10 (paddedDecimal width n) 0 = n := by
  rw [paddedDecimal, Nat.ofDigitChars_append, Nat.ofDigitChars_replicate_zero, Nat.mul_zero]
  exact Nat.ofDigitChars_ten_toDigits

theorem exists_toNat_eq_of_isDigit {c : Char} (h : c.isDigit = true) :
    ∃ n ≤ 9, c.toNat = '0'.toNat + n := by
  simp only [Char.isDigit, Bool.and_eq_true, decide_eq_true_eq] at h
  have hcode : 48 ≤ c.toNat ∧ c.toNat ≤ 57 := h
  have hzero : '0'.toNat = 48 := rfl
  exact ⟨c.toNat - 48, by omega, by omega⟩

/-- The first digit counts as many units as the digits after it can write. -/
theorem ofDigitChars_cons_zero (c : Char) (ds : List Char) :
    Nat.ofDigitChars 10 (c :: ds) 0 =
      Nat.pow 10 ds.length * (c.toNat - '0'.toNat) + Nat.ofDigitChars 10 ds 0 := by
  rw [Nat.ofDigitChars_cons, Nat.ofDigitChars_eq_ofDigitChars_zero, Nat.mul_zero, Nat.zero_add]
  rfl

theorem ofDigitChars_lt {ds : List Char} (h : ∀ c ∈ ds, c.isDigit = true) :
    Nat.ofDigitChars 10 ds 0 < Nat.pow 10 ds.length := by
  induction ds with
  | nil => decide
  | cons c ds ih =>
    obtain ⟨hc, hds⟩ := List.forall_mem_cons.1 h
    have hvalue : c.toNat - '0'.toNat ≤ 9 := by
      obtain ⟨n, hn, hcode⟩ := exists_toNat_eq_of_isDigit hc
      omega
    have hrest := ih hds
    have hlead : Nat.pow 10 ds.length * (c.toNat - '0'.toNat) ≤ Nat.pow 10 ds.length * 9 :=
      Nat.mul_le_mul_left _ hvalue
    have hsucc : Nat.pow 10 (ds.length + 1) = Nat.pow 10 ds.length * 10 := rfl
    rw [ofDigitChars_cons_zero, List.length_cons, hsucc]
    exact Nat.lt_of_lt_of_le (Nat.add_lt_add_of_le_of_lt hlead hrest) (by omega)

variable {c : Char}

theorem takeWhile_isDigit_paddedDecimal (width n : Nat) (hc : c.isDigit = false)
    (rest : List Char) :
    (paddedDecimal width n ++ c :: rest).takeWhile Char.isDigit = paddedDecimal width n := by
  rw [List.takeWhile_append_of_pos fun _ => isDigit_of_mem_paddedDecimal]
  simp [hc]

theorem dropWhile_isDigit_paddedDecimal (width n : Nat) (hc : c.isDigit = false)
    (rest : List Char) :
    (paddedDecimal width n ++ c :: rest).dropWhile Char.isDigit = c :: rest := by
  rw [List.dropWhile_append_of_pos fun _ => isDigit_of_mem_paddedDecimal]
  simp [hc]

end Text

namespace Text

variable {u v s t : List Char}

theorem append_lt_append_iff (h : u.length = v.length) :
    u ++ s < v ++ t ↔ u < v ∨ u = v ∧ s < t := by
  induction u generalizing v with
  | nil =>
    obtain rfl : v = [] := List.length_eq_zero_iff.1 h.symm
    simp
  | cons c u ih =>
    cases v with
    | nil => simp at h
    | cons d v =>
      have hlength : u.length = v.length := by simpa using h
      simp only [List.cons_append, List.cons_lt_cons_iff, ih hlength, List.cons.injEq]
      rw [and_or_left, and_assoc, or_assoc]

theorem append_lt_append_left_iff : u ++ s < u ++ t ↔ s < t := by
  rw [append_lt_append_iff rfl, or_iff_right (List.lt_irrefl u), and_iff_right rfl]

theorem mul_add_lt_mul_add_iff {unit a b x y : Nat} (hx : x < unit) (hy : y < unit) :
    unit * a + x < unit * b + y ↔ a < b ∨ a = b ∧ x < y := by
  rcases Nat.lt_trichotomy a b with h | rfl | h
  · have hmul : unit * (a + 1) ≤ unit * b := Nat.mul_le_mul_left unit h
    rw [Nat.mul_succ] at hmul
    omega
  · simp
  · have hmul : unit * (b + 1) ≤ unit * a := Nat.mul_le_mul_left unit h
    rw [Nat.mul_succ] at hmul
    omega

/-- Of two rows of digits with one length, that of the lesser number comes first. -/
theorem ofDigitChars_lt_iff (hlength : u.length = v.length) (hu : ∀ c ∈ u, c.isDigit = true)
    (hv : ∀ c ∈ v, c.isDigit = true) :
    Nat.ofDigitChars 10 u 0 < Nat.ofDigitChars 10 v 0 ↔ u < v := by
  induction u generalizing v with
  | nil =>
    obtain rfl : v = [] := List.length_eq_zero_iff.1 hlength.symm
    simp
  | cons c u ih =>
    cases v with
    | nil => simp at hlength
    | cons d v =>
      obtain ⟨hc, hu⟩ := List.forall_mem_cons.1 hu
      obtain ⟨hd, hv⟩ := List.forall_mem_cons.1 hv
      have hlength : u.length = v.length := by simpa using hlength
      have hless : c < d ↔ c.toNat < d.toNat := Iff.rfl
      have hsame : c = d ↔ c.toNat = d.toNat := Char.toNat_inj.symm
      obtain ⟨a, -, ha⟩ := exists_toNat_eq_of_isDigit hc
      obtain ⟨b, -, hb⟩ := exists_toNat_eq_of_isDigit hd
      rw [ofDigitChars_cons_zero, ofDigitChars_cons_zero, hlength,
        mul_add_lt_mul_add_iff (hlength ▸ ofDigitChars_lt hu) (ofDigitChars_lt hv),
        ih hlength hu hv, List.cons_lt_cons_iff, hless, hsame, ha, hb]
      simp

theorem ofDigitChars_inj (hlength : u.length = v.length) (hu : ∀ c ∈ u, c.isDigit = true)
    (hv : ∀ c ∈ v, c.isDigit = true) :
    Nat.ofDigitChars 10 u 0 = Nat.ofDigitChars 10 v 0 ↔ u = v := by
  constructor
  · intro h
    have hless := ofDigitChars_lt_iff hlength hu hv
    have hgreater := ofDigitChars_lt_iff hlength.symm hv hu
    rw [h, iff_false_left (Nat.lt_irrefl _)] at hless hgreater
    exact List.le_antisymm (List.not_lt.1 hgreater) (List.not_lt.1 hless)
  · rintro rfl
    rfl

theorem paddedDecimal_ofDigitChars (hne : u ≠ []) (hu : ∀ c ∈ u, c.isDigit = true) :
    paddedDecimal u.length (Nat.ofDigitChars 10 u 0) = u := by
  have hlength := length_paddedDecimal (List.length_pos_iff.2 hne) (ofDigitChars_lt hu)
  rw [← ofDigitChars_inj hlength (fun _ => isDigit_of_mem_paddedDecimal) hu,
    ofDigitChars_paddedDecimal]

theorem paddedDecimal_lt_iff {width a b : Nat} (hw : 0 < width) (ha : a < Nat.pow 10 width)
    (hb : b < Nat.pow 10 width) : paddedDecimal width a < paddedDecimal width b ↔ a < b := by
  have hlength : (paddedDecimal width a).length = (paddedDecimal width b).length := by
    rw [length_paddedDecimal hw ha, length_paddedDecimal hw hb]
  rw [← ofDigitChars_lt_iff hlength (fun _ => isDigit_of_mem_paddedDecimal)
    (fun _ => isDigit_of_mem_paddedDecimal), ofDigitChars_paddedDecimal, ofDigitChars_paddedDecimal]

theorem paddedDecimal_inj {width a b : Nat} :
    paddedDecimal width a = paddedDecimal width b ↔ a = b := by
  constructor
  · intro h
    rw [← ofDigitChars_paddedDecimal width a, h, ofDigitChars_paddedDecimal]
  · rintro rfl
    rfl

theorem paddedDecimal_append_lt_iff {width a b : Nat} (hw : 0 < width) (ha : a < Nat.pow 10 width)
    (hb : b < Nat.pow 10 width) :
    paddedDecimal width a ++ s < paddedDecimal width b ++ t ↔ a < b ∨ a = b ∧ s < t := by
  have hlength : (paddedDecimal width a).length = (paddedDecimal width b).length := by
    rw [length_paddedDecimal hw ha, length_paddedDecimal hw hb]
  rw [append_lt_append_iff hlength, paddedDecimal_lt_iff hw ha hb, paddedDecimal_inj]

end Text
end RenderFarm

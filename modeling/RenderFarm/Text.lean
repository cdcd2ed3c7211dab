/-! Texts as lists of characters. Blank characters are the code points with the Unicode property
`White_Space`, every character that core calls whitespace among them. Decimal numerals are non-empty
runs of ASCII digits, leading zeros included. A text is cut at separators into its non-empty
pieces, and cutting it at one of its separators cuts its pieces there. -/
namespace RenderFarm
namespace Text

/-- Whether a code point lies in one of the given inclusive ranges. -/
def inRanges (ranges : List (Nat × Nat)) (n : Nat) : Bool :=
  ranges.any fun r => decide (r.1 ≤ n) && decide (n ≤ r.2)

/-- The code points with the property `White_Space`. -/
def blankRanges : List (Nat × Nat) :=
  [(0x09, 0x0D), (0x20, 0x20), (0x85, 0x85), (0xA0, 0xA0), (0x1680, 0x1680), (0x2000, 0x200A),
   (0x2028, 0x2029), (0x202F, 0x202F), (0x205F, 0x205F), (0x3000, 0x3000)]

def isBlank (c : Char) : Bool := inRanges blankRanges c.toNat

/-- Whether a text holds blank characters only; the empty text does. -/
def isBlankText (s : String) : Bool := s.toList.all isBlank

theorem isBlank_of_isWhitespace {c : Char} (h : c.isWhitespace = true) : isBlank c = true := by
  simp only [Char.isWhitespace, Bool.or_eq_true, decide_eq_true_eq] at h
  rcases h with ((rfl | rfl) | rfl) | rfl <;> decide

@[simp] theorem isBlankText_empty : isBlankText "" = true := by decide

/-- The value of a non-empty run of ASCII digits; no other text has one. -/
def readDecimal? (cs : List Char) : Option Nat :=
  if cs ≠ [] ∧ cs.all Char.isDigit then some (Nat.ofDigitChars 10 cs 0) else none

def IsNumeral (cs : List Char) : Prop := cs ≠ [] ∧ ∀ c ∈ cs, c.isDigit = true

theorem readDecimal?_eq_some_iff {cs : List Char} {n : Nat} :
    readDecimal? cs = some n ↔ IsNumeral cs ∧ Nat.ofDigitChars 10 cs 0 = n := by
  simp [readDecimal?, IsNumeral]

theorem readDecimal?_eq_none_iff {cs : List Char} : readDecimal? cs = none ↔ ¬IsNumeral cs := by
  simp [readDecimal?, IsNumeral]

def decimal (n : Nat) : List Char := Nat.toDigits 10 n

def paddedDecimal (width n : Nat) : List Char :=
  List.replicate (width - (decimal n).length) '0' ++ decimal n

def decimalInt (n : Int) : List Char :=
  if n < 0 then '-' :: decimal n.natAbs else decimal n.natAbs

def hexValue? (c : Char) : Option Nat :=
  if c.isDigit then some (c.toNat - '0'.toNat)
  else if 'a' ≤ c ∧ c ≤ 'f' then some (c.toNat - 'a'.toNat + 10)
  else if 'A' ≤ c ∧ c ≤ 'F' then some (c.toNat - 'A'.toNat + 10)
  else none

def hexNumber? (cs : List Char) : Option Nat :=
  (cs.mapM hexValue?).map fun ds => ds.foldl (fun n d => 16 * n + d) 0

theorem isDigit_of_mem_decimal {n : Nat} {c : Char} (h : c ∈ decimal n) : c.isDigit = true :=
  Nat.isDigit_of_mem_toDigits (by decide) (by decide) h

@[simp] theorem readDecimal?_decimal (n : Nat) : readDecimal? (decimal n) = some n := by
  have hall : (decimal n).all Char.isDigit = true :=
    List.all_eq_true.2 fun c hc => isDigit_of_mem_decimal hc
  simp only [readDecimal?, hall, and_true]
  rw [if_pos (by simp [decimal])]
  simp [decimal, Nat.ofDigitChars_ten_toDigits]

/-- The non-empty pieces of a text between separators, in order. -/
def pieces (sep : Char → Bool) (s : List Char) : List (List Char) :=
  (s.splitOnP sep).filter (!·.isEmpty)

@[simp] theorem pieces_nil (sep : Char → Bool) : pieces sep [] = [] := by
  simp [pieces]

theorem pieces_append_cons (sep : Char → Bool) (s t : List Char) {c : Char} (h : sep c = true) :
    pieces sep (s ++ c :: t) = pieces sep s ++ pieces sep t := by
  simp [pieces, List.splitOnP_append_cons _ _ h]

theorem pieces_of_forall_not (sep : Char → Bool) {s : List Char} (h : ∀ c ∈ s, sep c = false)
    (hs : s ≠ []) : pieces sep s = [s] := by
  simp [pieces, List.splitOnP_eq_singleton h, hs]

theorem ne_nil_of_mem_pieces {sep : Char → Bool} {s p : List Char} (h : p ∈ pieces sep s) :
    p ≠ [] := by
  simpa using (List.mem_filter.1 h).2

theorem not_sep_of_mem_splitOnP {sep : Char → Bool} {s p : List Char} (h : p ∈ s.splitOnP sep) :
    ∀ c ∈ p, sep c = false := by
  induction s generalizing p with
  | nil => simp_all
  | cons a s ih =>
    rw [List.splitOnP_cons_eq_if_modifyHead] at h
    split at h
    · rcases List.mem_cons.1 h with rfl | h
      · simp
      · exact ih h
    · rename_i ha
      cases hs : s.splitOnP sep with
      | nil => exact absurd hs (List.splitOnP_ne_nil sep s)
      | cons q qs =>
        rw [hs] at h
        rcases List.mem_cons.1 h with rfl | h
        · have hq := ih (p := q) (by simp [hs])
          intro c hc
          rcases List.mem_cons.1 hc with rfl | hc
          · simpa using ha
          · exact hq c hc
        · exact ih (by simp [hs, h])

theorem not_sep_of_mem_pieces {sep : Char → Bool} {s p : List Char} (h : p ∈ pieces sep s) :
    ∀ c ∈ p, sep c = false :=
  not_sep_of_mem_splitOnP (List.mem_filter.1 h).1

end Text
end RenderFarm

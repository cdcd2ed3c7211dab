import Mathlib.Data.List.Basic
import RenderFarm.Proofs.Frames.Grammar

/-! Frames written and read again. The compact form of a chunk is a token that names the frames of
the chunk, and compact forms joined by commas are the tokens of the expression that they make. What
is written for the renderer has two dots for the hyphen, and the same chunk is read from it. -/
namespace RenderFarm
namespace Chunk

def readFrame? (digits : List Char) : Option Nat :=
  (Text.readDecimal? digits).filter (· ≤ maxFrame)

/-- The range that the renderer reads: a frame, or two around two dots. -/
def ofRenderRange? (s : String) : Option Chunk :=
  match s.toList.takeWhile (· != '.'), s.toList.dropWhile (· != '.') with
  | digits, [] => (readFrame? digits).map fun n => ⟨n, n⟩
  | start, '.' :: '.' :: stop => do some ⟨← readFrame? start, ← readFrame? stop⟩
  | _, _ => none

theorem readFrame?_decimal {n : Nat} (h : n ≤ maxFrame) :
    readFrame? (Text.decimal n) = some n := by
  simp [readFrame?, h]

theorem toList_text (c : Chunk) :
    c.text.toList = if c.first = c.last then Text.decimal c.first
      else Text.decimal c.first ++ '-' :: Text.decimal c.last := by
  unfold text
  split <;> simp [Text.decimal]

theorem toList_renderRange (c : Chunk) :
    c.renderRange.toList = if c.first = c.last then Text.decimal c.first
      else Text.decimal c.first ++ '.' :: '.' :: Text.decimal c.last := by
  unfold renderRange
  split <;> simp [Text.decimal]

theorem not_mem_text {mark : Char} (hdigit : mark.isDigit = false) (hmark : mark ≠ '-')
    (c : Chunk) : mark ∉ c.text.toList := by
  have hdecimal := fun n => Text.not_mem_decimal hdigit n
  rw [toList_text]
  split
  · exact hdecimal _
  · simp [hdecimal, hmark]

theorem not_mem_renderRange {mark : Char} (hdigit : mark.isDigit = false) (hmark : mark ≠ '.')
    (c : Chunk) : mark ∉ c.renderRange.toList := by
  have hdecimal := fun n => Text.not_mem_decimal hdigit n
  rw [toList_renderRange]
  split
  · exact hdecimal _
  · simp [hdecimal, hmark]

/-- The renderer reads the chunk that was written for it. -/
theorem ofRenderRange?_renderRange {c : Chunk} (hf : c.first ≤ maxFrame) (hl : c.last ≤ maxFrame) :
    ofRenderRange? c.renderRange = some c := by
  have hdot : '.' ∉ Text.decimal c.first := Text.not_mem_decimal (by decide) c.first
  unfold ofRenderRange?
  rw [toList_renderRange]
  by_cases he : c.first = c.last
  · have hc : (⟨c.first, c.first⟩ : Chunk) = c := by
      cases c
      exact congrArg _ he
    rw [if_pos he, Text.takeWhile_bne_of_not_mem hdot, Text.dropWhile_bne_of_not_mem hdot]
    simp only [readFrame?_decimal hf, Option.map_some]
    rw [hc]
  · rw [if_neg he, Text.takeWhile_bne_append_cons hdot, Text.dropWhile_bne_append_cons hdot]
    simp [readFrame?_decimal hf, readFrame?_decimal hl]

def dotsForHyphen (d : Char) : List Char := if d = '-' then ['.', '.'] else [d]

theorem renderRange_eq_text_with_dots (c : Chunk) :
    c.renderRange.toList = c.text.toList.flatMap dotsForHyphen := by
  have keep : ∀ n, (Text.decimal n).flatMap dotsForHyphen = Text.decimal n := by
    intro n
    rw [← List.flatMap_singleton' (Text.decimal n), List.flatMap_assoc]
    apply List.flatMap_congr
    intro d hd
    have hne : d ≠ '-' := by
      rintro rfl
      exact Text.not_mem_decimal (by decide) n hd
    simp [dotsForHyphen, hne]
  rw [toList_renderRange, toList_text]
  split
  · rw [keep]
  · rw [List.flatMap_append, List.flatMap_cons, keep, keep]
    simp [dotsForHyphen]

end Chunk

namespace Text

theorem pieces_intercalate {sep : Char → Bool} {mark : Char} (hmark : sep mark = true)
    {ps : List (List Char)} (h : ∀ p ∈ ps, p ≠ [] ∧ ∀ c ∈ p, sep c = false) :
    pieces sep ([mark].intercalate ps) = ps := by
  induction ps with
  | nil => simp
  | cons p ps ih =>
    obtain ⟨hp, hps⟩ := List.forall_mem_cons.1 h
    have hfirst := pieces_of_forall_not sep hp.2 hp.1
    cases ps with
    | nil => rwa [List.intercalate_singleton]
    | cons q ps =>
      rw [List.intercalate_cons_cons, List.append_assoc, List.singleton_append,
        pieces_append_cons sep p _ hmark, hfirst, ih hps, List.singleton_append]

end Text

namespace FrameSet

/-- The text stays in one piece in an expression: it is not empty and holds no separator. -/
def IsToken (t : List Char) : Prop := t ≠ [] ∧ ∀ c ∈ t, isSeparator c = false

theorem isSeparator_of_isDigit {c : Char} (h : c.isDigit = true) : isSeparator c = false := by
  have hcomma : c ≠ ',' := by
    rintro rfl
    exact absurd h (by decide)
  simp [isSeparator, hcomma, Text.isBlank_of_isDigit h]

theorem isToken_decimal (n : Nat) : IsToken (Text.decimal n) := by
  refine ⟨by simp [Text.decimal], fun c hc => ?_⟩
  exact isSeparator_of_isDigit (Text.isDigit_of_mem_decimal hc)

theorem isToken_range (a b : Nat) : IsToken (Text.decimal a ++ '-' :: Text.decimal b) := by
  refine ⟨by simp, fun c hc => ?_⟩
  rcases List.mem_append.1 hc with hc | hc
  · exact (isToken_decimal a).2 c hc
  · rcases List.mem_cons.1 hc with rfl | hc
    · decide
    · exact (isToken_decimal b).2 c hc

/-- Texts joined by commas are the tokens of the expression. -/
theorem tokens_intercalate {texts : List String} (h : ∀ t ∈ texts, IsToken t.toList) :
    tokens (",".intercalate texts) = texts.map String.toList := by
  rw [tokens, String.toList_intercalate]
  refine Text.pieces_intercalate (by decide) fun p hp => ?_
  obtain ⟨t, ht, rfl⟩ := List.mem_map.1 hp
  exact h t ht

theorem Names.unique {token : List Char} {a b c d : Nat} (h : Names token a b)
    (h' : Names token c d) : a = c ∧ b = d := by
  obtain ⟨r, hr, rfl, rfl⟩ := readToken_of_names h
  obtain ⟨r', hr', rfl, rfl⟩ := readToken_of_names h'
  cases hr.symm.trans hr'
  exact ⟨rfl, rfl⟩

end FrameSet

namespace Chunk

theorem isToken_text (c : Chunk) : FrameSet.IsToken c.text.toList := by
  rw [toList_text]
  split
  · exact FrameSet.isToken_decimal _
  · exact FrameSet.isToken_range _ _

theorem names_text {c : Chunk} (hc : c.first ≤ c.last) (hl : c.last ≤ maxFrame) :
    FrameSet.Names c.text.toList c.first c.last := by
  rw [toList_text]
  split
  · rename_i he
    rw [← he]
    exact .frame (Text.readDecimal?_decimal _) (Nat.le_trans hc hl)
  · exact .range (Text.readDecimal?_decimal _) (Text.readDecimal?_decimal _) hc hl

end Chunk

namespace FrameSet

/-- The expression that lists chunks selects the frames of the chunks. -/
theorem parse_intercalate_text {cs : List Chunk} (hne : cs ≠ [])
    (hcs : ∀ c ∈ cs, c.first ≤ c.last ∧ c.last ≤ maxFrame) :
    ∃ s, parse (",".intercalate (cs.map Chunk.text)) = .ok s ∧
      ∀ f, f ∈ s ↔ f ∈ cs.flatMap Chunk.toList := by
  have htokens : tokens (",".intercalate (cs.map Chunk.text)) =
      cs.map fun c => c.text.toList := by
    rw [tokens_intercalate, List.map_map]
    · rfl
    · intro t ht
      obtain ⟨c, -, rfl⟩ := List.mem_map.1 ht
      exact c.isToken_text
  have hnames : ∀ c ∈ cs, Names c.text.toList c.first c.last := by
    intro c hc
    exact Chunk.names_text (hcs c hc).1 (hcs c hc).2
  have hparsed : ∃ s, parse (",".intercalate (cs.map Chunk.text)) = .ok s := by
    rw [exists_parse_eq_ok_iff, htokens]
    refine ⟨by simpa using hne, fun t ht => ?_⟩
    obtain ⟨c, hc, rfl⟩ := List.mem_map.1 ht
    exact ⟨_, _, hnames c hc⟩
  obtain ⟨s, hs⟩ := hparsed
  refine ⟨s, hs, fun f => ?_⟩
  rw [mem_iff_selects hs, Selects, htokens]
  simp only [List.mem_map, List.mem_flatMap]
  constructor
  · rintro ⟨_, ⟨c, hc, rfl⟩, a, b, hab, hf⟩
    obtain ⟨rfl, rfl⟩ := hab.unique (hnames c hc)
    exact ⟨c, hc, Chunk.mem_toList.2 hf⟩
  · rintro ⟨c, hc, hf⟩
    exact ⟨_, ⟨c, hc, rfl⟩, _, _, hnames c hc, Chunk.mem_toList.1 hf⟩

end FrameSet
end RenderFarm

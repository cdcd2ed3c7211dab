import Mathlib.Data.List.Pairwise
import Mathlib.Data.List.Sort
import RenderFarm.Proofs.Frames.Writing

/-! The canonical form of a set of frames. The runs that a set is kept as are its maximal runs, so
that they depend on the frames of the set only: two sets with the same frames are equal, in whatever
order and pieces their frames were written. The runs do not touch, so that reading their texts again
neither joins nor reorders them: of all expressions that select the same frames, the compact one is
the normal form. -/
namespace RenderFarm
namespace FrameRun

instance : Std.Irrefl Before where
  irrefl r h := by
    have := r.first_le_last
    simp only [Before] at h
    omega

instance : Std.Antisymm Before where
  antisymm r s h₁ h₂ := by
    have := r.first_le_last
    have := s.first_le_last
    simp only [Before] at h₁ h₂
    omega

theorem ext_iff {r s : FrameRun} : r = s ↔ r.first = s.first ∧ r.last = s.last := by
  cases r
  cases s
  simp

end FrameRun

namespace FrameSet

/-- The run lies in the set, and neither the frame below it nor the one above it does. -/
structure IsMaximal (s : FrameSet) (r : FrameRun) : Prop where
  inside : ∀ f ∈ r, f ∈ s
  below : ∀ f ∈ s, f + 1 ≠ r.first
  above : r.last + 1 ∉ s

theorem before_or_before {s : FrameSet} {r t : FrameRun} (hr : r ∈ s.runs) (ht : t ∈ s.runs)
    (hne : r ≠ t) : r.Before t ∨ t.Before r := by
  have hsep : s.runs.Pairwise fun r t => r.Before t ∨ t.Before r := s.separated.imp .inl
  have : Std.Symm fun r t : FrameRun => r.Before t ∨ t.Before r := ⟨fun _ _ => Or.symm⟩
  exact hsep.forall hr ht hne

/-- The frames next to a run lie in no other run. -/
theorem isMaximal_of_mem_runs {s : FrameSet} {r : FrameRun} (hr : r ∈ s.runs) : s.IsMaximal r := by
  have apart : ∀ f, (f + 1 = r.first ∨ f = r.last + 1) → f ∉ s := by
    rintro f hf ⟨t, ht, hft⟩
    have hr' := r.first_le_last
    rw [FrameRun.mem_iff] at hft
    have hne : r ≠ t := by
      rintro rfl
      omega
    have hsep := before_or_before hr ht hne
    simp only [FrameRun.Before] at hsep
    omega
  refine ⟨fun f hf => ⟨r, hr, hf⟩, ?_, apart _ (.inr rfl)⟩
  intro f hf he
  exact apart f (.inl he) hf

/-- The runs that a set is kept as are its maximal runs. -/
theorem mem_runs_iff_isMaximal {s : FrameSet} {r : FrameRun} : r ∈ s.runs ↔ s.IsMaximal r := by
  refine ⟨isMaximal_of_mem_runs, fun h => ?_⟩
  have hr := r.first_le_last
  obtain ⟨t, ht, hft⟩ := h.inside r.first ⟨Nat.le_refl _, hr⟩
  have ht' := isMaximal_of_mem_runs ht
  rw [FrameRun.mem_iff] at hft
  have hlast : r.last = t.last := by
    rcases Nat.lt_trichotomy r.last t.last with hlt | heq | hgt
    · have hmem : r.last + 1 ∈ t := ⟨by omega, by omega⟩
      exact absurd (ht'.inside _ hmem) h.above
    · exact heq
    · have hmem : t.last + 1 ∈ r := ⟨by omega, by omega⟩
      exact absurd (h.inside _ hmem) ht'.above
  have hfirst : r.first = t.first := by
    by_contra hne
    have hmem : r.first - 1 ∈ t := ⟨by omega, by omega⟩
    exact h.below _ (ht'.inside _ hmem) (by omega)
  rw [FrameRun.ext_iff.2 ⟨hfirst, hlast⟩]
  exact ht

theorem IsMaximal.of_forall_mem_iff {s t : FrameSet} (h : ∀ f, f ∈ s ↔ f ∈ t) {r : FrameRun}
    (hr : s.IsMaximal r) : t.IsMaximal r where
  inside f hf := (h f).1 (hr.inside f hf)
  below f hf := hr.below f ((h f).2 hf)
  above hf := hr.above ((h _).2 hf)

theorem eq_iff_forall_mem_iff {s t : FrameSet} : s = t ↔ ∀ f, f ∈ s ↔ f ∈ t := by
  constructor
  · rintro rfl f
    exact Iff.rfl
  · intro h
    have hruns : s.runs = t.runs := by
      refine s.separated.eq_of_mem_iff t.separated fun r => ?_
      rw [mem_runs_iff_isMaximal, mem_runs_iff_isMaximal]
      exact ⟨.of_forall_mem_iff h, .of_forall_mem_iff fun f => (h f).symm⟩
    cases s
    cases t
    simpa using hruns

@[simp] theorem length_toList (s : FrameSet) : s.toList.length = s.size := by
  rw [toList, size]
  induction s.runs with
  | nil => rfl
  | cons r t ih => simp [ih]

theorem runs_ne_nil_of_parse {expression : String} {s : FrameSet}
    (h : parse expression = .ok s) : s.runs ≠ [] := by
  obtain ⟨f, r, hr, -⟩ := exists_mem_of_parse h
  exact List.ne_nil_of_mem hr

/-- A parsed set is kept as its maximal runs, in ascending order and with a gap between any two, and
they list each frame of the set once and in ascending order. Two parsed sets are equal if they
contain the same frames. -/
theorem parse_canonical {expression : String} {s : FrameSet} (h : parse expression = .ok s) :
    s.runs ≠ [] ∧ (∀ r ∈ s.runs, r.first ≤ r.last) ∧ (∀ r, r ∈ s.runs ↔ s.IsMaximal r) ∧
      s.runs.Pairwise (fun r t => r.last + 2 ≤ t.first) ∧
      s.toList.Pairwise (· < ·) ∧ s.toList.length = s.size ∧
      (∀ f, f ∈ s.toList ↔ s.contains f = true) ∧
      ∀ other t, parse other = .ok t → (s = t ↔ ∀ f, s.contains f = t.contains f) := by
  refine ⟨runs_ne_nil_of_parse h, fun r _ => r.first_le_last, fun _ => mem_runs_iff_isMaximal,
    s.separated, pairwise_lt_toList s, length_toList s, ?_, ?_⟩
  · intro f
    rw [mem_toList, contains_iff]
  · intro other t _
    rw [eq_iff_forall_mem_iff]
    refine forall_congr' fun f => ?_
    rw [Bool.eq_iff_iff, contains_iff, contains_iff]

def twoRuns : FrameSet :=
  ⟨[⟨1, 5, by decide, by decide⟩, ⟨10, 12, by decide, by decide⟩], by decide⟩

theorem parse_canonical_twoRuns :
    ∃ s t, parse "10-12 1-3,2-5 4" = .ok s ∧ parse "1 5,2-4 10,12 11" = .ok t ∧
      s.toList.length = s.size ∧ s.runs.Pairwise (fun r t => r.last + 2 ≤ t.first) ∧ s = t := by
  have hs : parse "10-12 1-3,2-5 4" = .ok twoRuns := by decide +kernel
  have ht : parse "1 5,2-4 10,12 11" = .ok twoRuns := by decide +kernel
  obtain ⟨-, -, -, hgaps, -, hlength, -, heq⟩ := parse_canonical hs
  exact ⟨twoRuns, twoRuns, hs, ht, hlength, hgaps, (heq _ _ ht).2 fun _ => rfl⟩

end FrameSet

namespace FrameRun

theorem text_eq_chunk_text (r : FrameRun) : r.text = (Chunk.mk r.first r.last).text.toList :=
  (Chunk.toList_text ⟨r.first, r.last⟩).symm

theorem isToken_text (r : FrameRun) : FrameSet.IsToken r.text := by
  rw [text_eq_chunk_text]
  exact Chunk.isToken_text _

theorem names_text (r : FrameRun) : FrameSet.Names r.text r.first r.last := by
  rw [text_eq_chunk_text]
  exact Chunk.names_text r.first_le_last r.last_le_maxFrame

theorem readToken_text (r : FrameRun) : FrameSet.readToken r.text = .ok r := by
  obtain ⟨t, ht, hfirst, hlast⟩ := FrameSet.readToken_of_names r.names_text
  rw [ht, ext_iff.2 ⟨hfirst, hlast⟩]

theorem text_injective : Function.Injective text := by
  intro r t h
  have hread : Except.ok r = (Except.ok t : Except FrameFault FrameRun) := by
    rw [← readToken_text r, h, readToken_text t]
  exact Except.ok.inj hread

end FrameRun

namespace FrameSet

theorem tokens_text (s : FrameSet) : tokens s.text = s.runs.map FrameRun.text := by
  rw [tokens, text, String.toList_ofList]
  refine Text.pieces_intercalate (by decide) fun p hp => ?_
  obtain ⟨r, -, rfl⟩ := List.mem_map.1 hp
  exact r.isToken_text

/-- The runs of a set make up the set again. -/
theorem ofRuns_runs (s : FrameSet) : ofRuns s.runs = s := by
  rw [eq_iff_forall_mem_iff]
  intro f
  rw [mem_ofRuns, mem_iff]

theorem parse_text {s : FrameSet} (h : s.runs ≠ []) : parse s.text = .ok s := by
  have hread : (s.runs.map FrameRun.text).map readToken = s.runs.map .ok := by
    rw [List.map_map]
    exact List.map_congr_left fun r _ => r.readToken_text
  rw [parse_eq_ok_iff, tokens_text]
  exact ⟨by simpa using h, s.runs, hread, ofRuns_runs s⟩

theorem text_inj {s t : FrameSet} : s.text = t.text ↔ s = t := by
  constructor
  · intro h
    have hruns : s.runs = t.runs := by
      apply FrameRun.text_injective.list_map
      rw [← tokens_text, h, tokens_text]
    rw [← ofRuns_runs s, hruns, ofRuns_runs]
  · rintro rfl
    rfl

/-- The compact expression of a parsed set is parsed to the set itself. Two parsed sets have the
same compact expression if they are equal, that is, if the expressions that they were parsed from
select the same frames. -/
theorem text_normal_form {expression : String} {s : FrameSet} (h : parse expression = .ok s) :
    parse s.text = .ok s ∧
      ∀ other t, parse other = .ok t →
        (s.text = t.text ↔ s = t) ∧
        (s.text = t.text ↔ ∀ f, Selects expression f ↔ Selects other f) := by
  refine ⟨parse_text (runs_ne_nil_of_parse h), fun other t ht => ⟨text_inj, ?_⟩⟩
  rw [text_inj, eq_iff_forall_mem_iff]
  refine forall_congr' fun f => ?_
  rw [mem_iff_selects h, mem_iff_selects ht]

theorem text_normal_form_twoRuns :
    parse "1-5,10-12" = .ok twoRuns ∧
      ∃ t, parse "12 10-11,1-3,2-5" = .ok t ∧ t.text = "1-5,10-12" := by
  have hs : parse "10-12 1-3,2-5 4" = .ok twoRuns := by decide +kernel
  have ht : parse "12 10-11,1-3,2-5" = .ok twoRuns := by decide +kernel
  have htext : twoRuns.text = "1-5,10-12" := by decide +kernel
  obtain ⟨hparse, hequal⟩ := text_normal_form hs
  rw [htext] at hparse hequal
  exact ⟨hparse, twoRuns, ht, ((hequal _ _ ht).1.2 rfl).symm⟩

end FrameSet
end RenderFarm

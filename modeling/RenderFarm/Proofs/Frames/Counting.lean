import Mathlib.Algebra.Order.Floor.Div
import Mathlib.Data.List.Perm.Subperm
import RenderFarm.Proofs.Frames.Loops
import RenderFarm.Proofs.Frames.Rerendering

/-! The number of chunks. A run takes as many as its frames divided by the chunk size, rounded up;
this number is known before a chunk is made, and it decides about the limit. No ranges of that size
that hold the same frames are fewer, because none of them can hold the starts of two chunks. So
greater chunks are never more, and they keep within the limit if smaller ones do. -/
namespace RenderFarm

theorem FrameRun.chunkCount_eq_ceilDiv {n : Nat} (hn : 0 < n) (r : FrameRun) :
    r.chunkCount n = r.toList.length ⌈/⌉ n := by
  have hround : r.size + n - 1 = r.last - r.first + n := by
    rw [size]
    omega
  rw [length_toList, Nat.ceilDiv_eq_add_pred_div, hround, Nat.add_div_right _ hn, chunkCount]

namespace FrameSet

def rangeCount (n : Nat) (s : FrameSet) : Nat :=
  s.runs.foldr (fun r k => (r.toList.length ⌈/⌉ n : Nat) + k) 0

theorem chunkCount_eq_rangeCount {n : Nat} (hn : 0 < n) (s : FrameSet) :
    s.chunkCount n = s.rangeCount n := by
  refine List.foldr_ext _ _ _ fun r _ k => ?_
  rw [FrameRun.chunkCount_eq_ceilDiv hn]

theorem chunks_eq_error_iff {size : Int} {s : FrameSet} {e : JobError} :
    s.chunks size = .error e ↔
      size < 1 ∧ e = .badChunkSize size ∨
        1 ≤ size ∧ maxChunks < s.chunkCount size.toNat ∧
          e = .badFrames s.text (.tooManyChunks size (s.chunkCount size.toNat)) := by
  by_cases hsize : size < 1
  · rw [chunks_of_lt hsize]
    simp [hsize, eq_comm]
  · have hone : 1 ≤ size := Int.not_lt.1 hsize
    by_cases hlimit : maxChunks < s.chunkCount size.toNat
    · rw [chunks_of_limit hone (by rwa [length_cut])]
      simp [hone, hlimit, eq_comm]
    · rw [chunks_of_le hone (by rw [length_cut]; exact Nat.not_lt.1 hlimit)]
      simp [hsize, hlimit]

theorem nodup_runs (s : FrameSet) : s.runs.Nodup := by
  refine s.separated.imp ?_
  rintro r _ hbefore rfl
  exact Std.Irrefl.irrefl r hbefore

/-- Cutting fails if the chunk size is below one. Otherwise the sizes of the maximal runs, divided
by the chunk size and each rounded up, add up to a number that decides: the set is cut into so many
chunks, or that is over the limit and cutting fails. The count that is taken before the loop is the
number of chunks that the loop makes. -/
theorem chunks_counted (s : FrameSet) (size : Int) :
    let made := s.runs.flatMap fun r => FrameRun.takeChunks size.toNat r.last r.first
    s.runs.Nodup ∧ (∀ r, r ∈ s.runs ↔ s.IsMaximal r) ∧
    (s.chunks size = .error (.badChunkSize size) ↔ size < 1) ∧
    ((∃ text fault, s.chunks size = .error (.badFrames text fault)) ↔
      1 ≤ size ∧ 1000000 < s.rangeCount size.toNat) ∧
    ((∃ cs, s.chunks size = .ok cs ∧ cs.length = s.rangeCount size.toNat) ↔
      1 ≤ size ∧ s.rangeCount size.toNat ≤ 1000000) ∧
    (∀ cs, s.chunks size = .ok cs → cs = made) ∧
    (1 ≤ size → s.chunkCount size.toNat = made.length) := by
  intro made
  have hcount : 1 ≤ size → s.chunkCount size.toNat = s.rangeCount size.toNat :=
    fun hsize => chunkCount_eq_rangeCount (by omega) s
  have hmade : 1 ≤ size → s.cut size.toNat = made :=
    fun hsize => cut_eq_flatMap_takeChunks (by omega) s
  refine ⟨nodup_runs s, fun _ => mem_runs_iff_isMaximal, ?_, ?_, ?_, ?_, ?_⟩
  · rw [chunks_eq_error_iff]
    simp
  · simp only [chunks_eq_error_iff]
    constructor
    · rintro ⟨text, fault, ⟨-, he⟩ | ⟨hsize, hlimit, -⟩⟩
      · cases he
      · exact ⟨hsize, hcount hsize ▸ hlimit⟩
    · rintro ⟨hsize, hlimit⟩
      exact ⟨_, _, .inr ⟨hsize, hcount hsize ▸ hlimit, rfl⟩⟩
  · simp only [chunks_eq_ok_iff]
    constructor
    · rintro ⟨cs, ⟨hsize, hlimit, -⟩, -⟩
      exact ⟨hsize, hcount hsize ▸ hlimit⟩
    · rintro ⟨hsize, hlimit⟩
      exact ⟨_, ⟨hsize, hcount hsize ▸ hlimit, rfl⟩, by rw [length_cut, hcount hsize]⟩
  · intro cs hcs
    obtain ⟨hsize, -, rfl⟩ := chunks_eq_ok_iff.1 hcs
    exact hmade hsize
  · intro hsize
    rw [← hmade hsize, length_cut]

end FrameSet

namespace Chunk.AreCut

variable {n : Nat} {c d : Chunk} {cs ranges : List Chunk}

theorem ahead_or_ahead (h : AreCut n cs) (hc : c ∈ cs) (hd : d ∈ cs) (hne : c ≠ d) :
    Ahead n c d ∨ Ahead n d c := by
  have heither : cs.Pairwise fun c d => Ahead n c d ∨ Ahead n d c := h.ahead.imp .inl
  have : Std.Symm fun c d => Ahead n c d ∨ Ahead n d c := ⟨fun _ _ => Or.symm⟩
  exact heither.forall hc hd hne

/-- If all frames between the starts of two chunks are there, the first chunk is full. -/
theorem first_add_le (h : AreCut n cs) (hc : c ∈ cs) (hahead : Ahead n c d)
    (hbetween : ∀ f, c.first ≤ f → f ≤ d.first → f ∈ cs.flatMap toList) :
    c.first + n ≤ d.first := by
  have hle := (h.fits c hc).1
  have hlt := hahead.1
  obtain ⟨e, he, hnext⟩ := List.mem_flatMap.1 (hbetween (c.last + 1) (by omega) hlt)
  rw [mem_toList] at hnext
  have hne : c ≠ e := by
    rintro rfl
    omega
  rcases h.ahead_or_ahead hc he hne with hce | hec
  · have hfirst : e.first = c.last + 1 := Nat.le_antisymm hnext.1 hce.1
    have hfull := hce.2 hfirst
    omega
  · have hbefore := hec.1
    omega

/-- The frames of the chunks are not held by fewer ranges of at most `n` frames. -/
theorem length_le_of_holds (h : AreCut n cs) (hshort : ∀ r ∈ ranges, r.toList.length ≤ n)
    (hholds : ∀ f, f ∈ ranges.flatMap toList ↔ f ∈ cs.flatMap toList) :
    cs.length ≤ ranges.length := by
  have hstart : ∀ c, ∃ r, c ∈ cs → r ∈ ranges ∧ c.first ∈ r.toList := by
    intro c
    by_cases hc : c ∈ cs
    · have hframe : c.first ∈ cs.flatMap toList :=
        List.mem_flatMap.2 ⟨c, hc, mem_toList.2 ⟨Nat.le_refl _, (h.fits c hc).1⟩⟩
      obtain ⟨r, hr⟩ := List.mem_flatMap.1 ((hholds c.first).2 hframe)
      exact ⟨r, fun _ => hr⟩
    · exact ⟨c, fun hmem => absurd hmem hc⟩
  choose holder hholder using hstart
  have hnodup : (cs.map holder).Nodup := by
    refine List.pairwise_map.2 (h.ahead.imp_of_mem fun {c d} hc hd hahead hsame => ?_)
    obtain ⟨hr, hcr⟩ := hholder c hc
    obtain ⟨-, hdr⟩ := hholder d hd
    rw [← hsame] at hdr
    have hlength := hshort _ hr
    rw [mem_toList] at hcr hdr
    rw [length_toList] at hlength
    -- A range with both starts holds all frames between them, and so too many.
    have hfar := h.first_add_le hc hahead fun f hcf hfd =>
      (hholds f).1 (List.mem_flatMap.2 ⟨_, hr, mem_toList.2 ⟨by omega, by omega⟩⟩)
    omega
  have hsub : cs.map holder ⊆ ranges := by
    intro r hr
    obtain ⟨c, hc, rfl⟩ := List.mem_map.1 hr
    exact (hholder c hc).1
  simpa using (hnodup.subperm hsub).length_le

end Chunk.AreCut

namespace FrameSet

/-- The ranges hold at most `size` frames each, and together just the frames of the set. They may
overlap and come in any order. -/
structure IsHeldBy (s : FrameSet) (size : Int) (ranges : List Chunk) : Prop where
  short : ∀ r ∈ ranges, (r.toList.length : Int) ≤ size
  holds : ∀ f, f ∈ s ↔ ∃ r ∈ ranges, f ∈ r.toList

variable {size : Int} {s : FrameSet} {cs ranges : List Chunk}

theorem isHeldBy_cut {n : Nat} (hn : 0 < n) (hsize : (n : Int) ≤ size) (s : FrameSet) :
    s.IsHeldBy size (s.cut n) where
  short c hc := by
    have hbounds := bounds_of_mem_cut hn hc
    rw [Chunk.length_toList]
    omega
  holds f := by
    rw [← mem_toList, ← flatMap_toList_cut hn, List.mem_flatMap]

theorem IsHeldBy.length_cut_le (h : s.IsHeldBy size ranges) (hsize : 1 ≤ size) :
    (s.cut size.toNat).length ≤ ranges.length := by
  have hn : 0 < size.toNat := by omega
  refine (areCut_cut hn s).length_le_of_holds (fun r hr => ?_) fun f => ?_
  · have hshort := h.short r hr
    omega
  · rw [flatMap_toList_cut hn, mem_toList, h.holds, List.mem_flatMap]

theorem length_cut_le_of_le {m n : Nat} (hm : 0 < m) (hle : m ≤ n) (s : FrameSet) :
    (s.cut n).length ≤ (s.cut m).length := by
  have hheld : s.IsHeldBy n (s.cut m) := isHeldBy_cut hm (by omega) s
  exact hheld.length_cut_le (by omega)

theorem chunks_of_le_size (h : s.chunks size = .ok cs) {greater : Int} (hle : size ≤ greater) :
    s.chunks greater = .ok (s.cut greater.toNat) := by
  obtain ⟨hsize, hlimit, rfl⟩ := chunks_eq_ok_iff.1 h
  have hfewer := length_cut_le_of_le (m := size.toNat) (n := greater.toNat) (by omega) (by omega) s
  rw [length_cut, length_cut] at hfewer
  exact chunks_eq_ok_iff.2 ⟨by omega, Nat.le_trans hfewer hlimit, rfl⟩

/-- The chunks of a set are the fewest ranges that hold its frames, with at most as many frames each
as the chunk size says. So a set that is cut into chunks is cut into no more of them if the chunk
size is greater. -/
theorem chunks_fewest (h : s.chunks size = .ok cs) :
    s.IsHeldBy size cs ∧ (∀ ranges, s.IsHeldBy size ranges → cs.length ≤ ranges.length) ∧
      ∀ greater, size ≤ greater →
        ∃ fewer, s.chunks greater = .ok fewer ∧ fewer.length ≤ cs.length := by
  have hcut : ∀ greater, size ≤ greater → s.chunks greater = .ok (s.cut greater.toNat) :=
    fun _ => chunks_of_le_size h
  obtain ⟨hsize, -, rfl⟩ := chunks_eq_ok_iff.1 h
  have hn : 0 < size.toNat := by omega
  refine ⟨isHeldBy_cut hn (by omega) s, fun ranges hranges => hranges.length_cut_le hsize, ?_⟩
  intro greater hgreater
  exact ⟨_, hcut greater hgreater, length_cut_le_of_le hn (by omega) s⟩

theorem chunks_fewest_twoRuns :
    ∃ cs, twoRuns.chunks 2 = .ok cs ∧ cs.length = 5 ∧
      twoRuns.IsHeldBy 2 [⟨11, 12⟩, ⟨4, 5⟩, ⟨10, 11⟩, ⟨2, 3⟩, ⟨1, 2⟩] ∧
      (∀ ranges, twoRuns.IsHeldBy 2 ranges → 5 ≤ ranges.length) ∧
      ∃ fewer, twoRuns.chunks 3 = .ok fewer ∧ fewer.length ≤ 5 := by
  obtain ⟨-, hfewest, hgreater⟩ := chunks_fewest chunks_twoRuns
  refine ⟨_, chunks_twoRuns, rfl, ⟨by decide, fun f => ?_⟩, hfewest, hgreater 3 (by decide)⟩
  simp only [mem_iff, twoRuns, FrameRun.mem_iff, Chunk.mem_toList, List.mem_cons,
    List.not_mem_nil, or_false, exists_eq_or_imp, exists_eq_left]
  omega

end FrameSet
end RenderFarm

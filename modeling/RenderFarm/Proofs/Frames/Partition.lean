import Mathlib.Data.List.Basic
import RenderFarm.Proofs.Frames.Canonical

/-! The chunks of a set as a partition of its frames. The chunks of a run follow one another without
a gap or an overlap, and so do, run by run, those of a set: listed one after another they give the
frames of the set in ascending order. Only the last chunk of a run may hold fewer frames than the
chunk size; so a chunk that is not full is followed by a gap. -/
namespace RenderFarm
namespace FrameRun

/-- All chunks before the last one end where they are full, within the run. -/
theorem mul_le_of_lt_chunkCount {n i : Nat} {r : FrameRun} (hi : i < r.chunkCount n) :
    i * n ≤ r.last - r.first := by
  have h : i ≤ (r.last - r.first) / n := Nat.lt_succ_iff.1 hi
  exact Nat.le_trans (Nat.mul_le_mul_right n h) (Nat.div_mul_le_self _ n)

theorem size_le_chunkCount_mul {n : Nat} (hn : 0 < n) (r : FrameRun) :
    r.size ≤ r.chunkCount n * n := by
  rw [size, chunkCount, Nat.succ_mul]
  exact Nat.lt_div_mul_add hn

theorem toList_first_chunks {n k : Nat} (hn : 0 < n) {r : FrameRun} (hk : k ≤ r.chunkCount n) :
    ((List.range k).map (r.chunkAt n)).flatMap Chunk.toList =
      List.range' r.first (min (k * n) r.size) := by
  induction k with
  | zero => simp
  | succ k ih =>
    have hr := r.first_le_last
    have hmul := mul_le_of_lt_chunkCount hk
    have hfull : min (k * n) r.size = k * n := by simp only [size]; omega
    have hnext : (r.chunkAt n k).toList =
        List.range' (r.first + k * n) (min ((k + 1) * n) r.size - k * n) := by
      simp only [Chunk.toList, chunkAt, size, Nat.succ_mul]
      congr 1
      omega
    have hstart : k * n ≤ min ((k + 1) * n) r.size := by
      simp only [size, Nat.succ_mul]
      omega
    rw [List.range_succ, List.map_append, List.flatMap_append, ih (by omega), hfull]
    simp only [List.map_cons, List.map_nil, List.flatMap_cons, List.flatMap_nil, List.append_nil]
    rw [hnext, List.range'_append_1, Nat.add_sub_cancel' hstart]

theorem flatMap_toList_cut {n : Nat} (hn : 0 < n) (r : FrameRun) :
    (r.cut n).flatMap Chunk.toList = r.toList := by
  have h := toList_first_chunks hn (Nat.le_refl (r.chunkCount n))
  rwa [Nat.min_eq_right (size_le_chunkCount_mul hn r)] at h

@[simp] theorem length_cut (n : Nat) (r : FrameRun) : (r.cut n).length = r.chunkCount n := by
  simp [cut]

/-- A chunk lies in its run and holds between one and `n` frames. -/
theorem bounds_of_mem_cut {n : Nat} (hn : 0 < n) {r : FrameRun} {c : Chunk} (hc : c ∈ r.cut n) :
    r.first ≤ c.first ∧ c.first ≤ c.last ∧ c.last ≤ r.last ∧ c.last < c.first + n := by
  obtain ⟨i, hi, rfl⟩ := List.mem_map.1 hc
  have hmul := mul_le_of_lt_chunkCount (List.mem_range.1 hi)
  have hr := r.first_le_last
  simp only [chunkAt]
  omega

end FrameRun

namespace FrameSet

/-- All runs of the set cut at every `n`-th frame, however many chunks that gives. -/
def cut (n : Nat) (s : FrameSet) : List Chunk := s.runs.flatMap (FrameRun.cut n)

theorem flatMap_toList_cut {n : Nat} (hn : 0 < n) (s : FrameSet) :
    (s.cut n).flatMap Chunk.toList = s.toList := by
  rw [cut, toList, List.flatMap_assoc]
  apply List.flatMap_congr
  intro r _
  exact FrameRun.flatMap_toList_cut hn r

/-- The number that decides about the limit is the number of chunks. -/
@[simp] theorem length_cut (n : Nat) (s : FrameSet) : (s.cut n).length = s.chunkCount n := by
  rw [cut, chunkCount]
  induction s.runs with
  | nil => rfl
  | cons r t ih => simp [ih]

theorem bounds_of_mem_cut {n : Nat} (hn : 0 < n) {s : FrameSet} {c : Chunk} (hc : c ∈ s.cut n) :
    c.first ≤ c.last ∧ c.last ≤ maxFrame ∧ c.last < c.first + n := by
  obtain ⟨r, _, hcr⟩ := List.mem_flatMap.1 hc
  have h := FrameRun.bounds_of_mem_cut hn hcr
  have hr := r.last_le_maxFrame
  exact ⟨h.2.1, Nat.le_trans h.2.2.1 hr, h.2.2.2⟩

theorem chunks_of_lt {size : Int} (h : size < 1) (s : FrameSet) :
    s.chunks size = .error (.badChunkSize size) := by
  rw [chunks, if_pos h]

theorem chunks_of_limit {size : Int} (h : 1 ≤ size) {s : FrameSet}
    (hl : maxChunks < (s.cut size.toNat).length) :
    s.chunks size = .error (.badFrames s.text (.tooManyChunks size (s.chunkCount size.toNat))) := by
  rw [length_cut] at hl
  rw [chunks, if_neg (by omega)]
  simp only [if_pos hl]

theorem chunks_of_le {size : Int} (h : 1 ≤ size) {s : FrameSet}
    (hl : (s.cut size.toNat).length ≤ maxChunks) : s.chunks size = .ok (s.cut size.toNat) := by
  rw [length_cut] at hl
  rw [chunks, if_neg (by omega)]
  simp only [if_neg (Nat.not_lt.2 hl), cut]

end FrameSet

theorem mapM_eq_pure {m : Type → Type} [Monad m] [LawfulMonad m] {α β : Type} {f : α → m β}
    {g : α → β} {l : List α} (h : ∀ a ∈ l, f a = pure (g a)) : l.mapM f = pure (l.map g) := by
  induction l with
  | nil => rw [List.mapM_nil, List.map_nil]
  | cons a l ih =>
    obtain ⟨ha, hl⟩ := List.forall_mem_cons.1 h
    rw [List.mapM_cons, ha, ih hl, pure_bind, pure_bind, List.map_cons]

namespace Chunk

/-- The chunk is a part of the run that holds at most `size` frames, and just as many unless the run
ends with it. -/
structure PartOf (size : Int) (r : FrameRun) (c : Chunk) : Prop where
  first_le_last : c.first ≤ c.last
  starts : r.first ≤ c.first
  ends : c.last ≤ r.last
  bounded : (c.toList.length : Int) ≤ size
  full : c.last ≠ r.last → (c.toList.length : Int) = size

theorem frameCount?_eq_some {c : Chunk} (h : c.first ≤ c.last) :
    c.frameCount? = some c.toList.length := by
  rw [frameCount?, if_pos h, length_toList, Nat.succ_sub h]

theorem mapM_frameCount?_eq_some {cs : List Chunk} (h : ∀ c ∈ cs, c.first ≤ c.last) :
    cs.mapM frameCount? = some (cs.map fun c => c.toList.length) :=
  mapM_eq_pure fun c hc => frameCount?_eq_some (h c hc)

/-- `d` comes after `c`, and right after it only if `c` is full. -/
def Ahead (n : Nat) (c d : Chunk) : Prop :=
  c.last < d.first ∧ (d.first = c.last + 1 → d.first = c.first + n)

end Chunk

namespace FrameRun

variable {n : Nat} {r : FrameRun}

/-- All chunks of a run but the last one are full. -/
theorem last_chunkAt {i j : Nat} (hij : i < j) (hj : j < r.chunkCount n) :
    (r.chunkAt n i).last = r.first + i * n + (n - 1) := by
  have hr := r.first_le_last
  have hmul := mul_le_of_lt_chunkCount hj
  have hnext : (i + 1) * n ≤ j * n := Nat.mul_le_mul_right n hij
  simp only [chunkAt]
  rw [Nat.succ_mul] at hnext
  omega

theorem partOf_of_mem_cut (hn : 0 < n) {c : Chunk} (hc : c ∈ r.cut n) : c.PartOf n r := by
  obtain ⟨hfirst, horder, hlast, hshort⟩ := bounds_of_mem_cut hn hc
  refine ⟨horder, hfirst, hlast, ?_, ?_⟩
  · rw [Chunk.length_toList]
    omega
  · intro hne
    obtain ⟨i, -, rfl⟩ := List.mem_map.1 hc
    simp only [chunkAt, Chunk.length_toList] at hne ⊢
    omega

theorem pairwise_ahead_cut (hn : 0 < n) (r : FrameRun) : (r.cut n).Pairwise (Chunk.Ahead n) := by
  rw [cut, List.pairwise_map]
  refine List.pairwise_lt_range.imp_of_mem fun {i j} _ hj hij => ?_
  have hlast := last_chunkAt hij (List.mem_range.1 hj)
  have hnext : (i + 1) * n ≤ j * n := Nat.mul_le_mul_right n hij
  rw [Nat.succ_mul] at hnext
  simp only [Chunk.Ahead, hlast]
  simp only [chunkAt]
  omega

end FrameRun

namespace FrameSet

theorem pairwise_ahead_cut {n : Nat} (hn : 0 < n) (s : FrameSet) :
    (s.cut n).Pairwise (Chunk.Ahead n) := by
  rw [cut, List.pairwise_flatMap]
  constructor
  · intro r _
    exact FrameRun.pairwise_ahead_cut hn r
  · refine s.separated.imp ?_
    intro r t hrt c hc d hd
    have hcr := FrameRun.bounds_of_mem_cut hn hc
    have hdt := FrameRun.bounds_of_mem_cut hn hd
    simp only [FrameRun.Before] at hrt
    simp only [Chunk.Ahead]
    omega

theorem chunks_eq_ok_iff {size : Int} {s : FrameSet} {cs : List Chunk} :
    s.chunks size = .ok cs ↔
      1 ≤ size ∧ s.chunkCount size.toNat ≤ maxChunks ∧ s.cut size.toNat = cs := by
  by_cases hsize : 1 ≤ size
  · by_cases hlimit : s.chunkCount size.toNat ≤ maxChunks
    · rw [chunks_of_le hsize (by rwa [length_cut])]
      simp [hsize, hlimit]
    · rw [chunks_of_limit hsize (by rw [length_cut]; exact Nat.lt_of_not_le hlimit)]
      simp [hlimit]
  · rw [chunks_of_lt (Int.lt_of_not_ge hsize)]
    simp [hsize]

theorem exists_partOf_of_mem_cut {n : Nat} (hn : 0 < n) {s : FrameSet} {c : Chunk}
    (hc : c ∈ s.cut n) : ∃ r, s.IsMaximal r ∧ c.PartOf n r := by
  obtain ⟨r, hr, hcr⟩ := List.mem_flatMap.1 hc
  exact ⟨r, isMaximal_of_mem_runs hr, FrameRun.partOf_of_mem_cut hn hcr⟩

theorem exists_counts_cut {n : Nat} (hn : 0 < n) (s : FrameSet) :
    ∃ counts, (s.cut n).mapM Chunk.frameCount? = some counts ∧ counts.foldr (· + ·) 0 = s.size := by
  refine ⟨(s.cut n).map fun c => c.toList.length, ?_, ?_⟩
  · refine Chunk.mapM_frameCount?_eq_some fun c hc => ?_
    exact (bounds_of_mem_cut hn hc).1
  · rw [← List.sum_eq_foldr, ← List.length_flatMap, flatMap_toList_cut hn, length_toList]

/-- The chunks of a set hold its frames, each once and in ascending order. A chunk is a part of one
maximal run, with as many frames as the chunk size allows unless the run ends with it, and the
counts of frames add up to the size of the set. -/
theorem chunks_partition {size : Int} {s : FrameSet} {cs : List Chunk}
    (h : s.chunks size = .ok cs) :
    cs.flatMap Chunk.toList = s.toList ∧ (∀ c ∈ cs, ∃ r, s.IsMaximal r ∧ c.PartOf size r) ∧
      cs.Pairwise (fun c d => c.last < d.first) ∧
      ∃ counts, cs.mapM Chunk.frameCount? = some counts ∧ counts.foldr (· + ·) 0 = s.size := by
  obtain ⟨hsize, -, rfl⟩ := chunks_eq_ok_iff.1 h
  have hn : 0 < size.toNat := by omega
  have hcast : (size.toNat : Int) = size := Int.toNat_of_nonneg (by omega)
  refine ⟨flatMap_toList_cut hn s, ?_, ?_, exists_counts_cut hn s⟩
  · intro c hc
    rw [← hcast]
    exact exists_partOf_of_mem_cut hn hc
  · exact (pairwise_ahead_cut hn s).imp And.left

theorem chunks_twoRuns :
    twoRuns.chunks 2 = .ok [⟨1, 2⟩, ⟨3, 4⟩, ⟨5, 5⟩, ⟨10, 11⟩, ⟨12, 12⟩] := by
  decide

theorem chunks_partition_twoRuns :
    ∃ cs, twoRuns.chunks 2 = .ok cs ∧ cs.flatMap Chunk.toList = twoRuns.toList ∧
      ∀ c ∈ cs, ∃ r, twoRuns.IsMaximal r ∧ c.PartOf 2 r := by
  obtain ⟨hframes, hparts, -, -⟩ := chunks_partition chunks_twoRuns
  exact ⟨_, chunks_twoRuns, hframes, hparts⟩

end FrameSet
end RenderFarm

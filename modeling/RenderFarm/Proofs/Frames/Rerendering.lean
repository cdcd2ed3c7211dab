import Mathlib.Data.List.Perm.Subperm
import RenderFarm.Proofs.Frames.Partition

/-! Rendering chosen chunks again. Chunks that come in ascending order, each with at most `n` frames
and followed at once only if it is full, are told by their frames alone. Some of the chunks of a set
are such chunks again, so that cutting just their frames gives the same chunks. -/
namespace RenderFarm

namespace Chunk

/-- The chunks ascend and hold between one and `n` frames, and after one that is not full comes a
gap. -/
structure AreCut (n : Nat) (cs : List Chunk) : Prop where
  fits : ∀ c ∈ cs, c.first ≤ c.last ∧ c.last < c.first + n
  ahead : cs.Pairwise (Ahead n)

namespace AreCut

variable {n : Nat} {c d : Chunk} {cs ds : List Chunk}

theorem sublist (h : AreCut n cs) (hsub : ds.Sublist cs) : AreCut n ds :=
  ⟨fun d hd => h.fits d (hsub.subset hd), h.ahead.sublist hsub⟩

theorem lt_of_mem_tail (h : AreCut n (c :: cs)) {f : Nat} (hf : f ∈ cs.flatMap toList) :
    c.last < f := by
  obtain ⟨d, hd, hfd⟩ := List.mem_flatMap.1 hf
  have hahead := (List.pairwise_cons.1 h.ahead).1 d hd
  rw [mem_toList] at hfd
  exact Nat.lt_of_lt_of_le hahead.1 hfd.1

/-- The frames of the first chunk are those up to its last one. -/
theorem mem_tail_iff (h : AreCut n (c :: cs)) {f : Nat} :
    f ∈ cs.flatMap toList ↔ f ∈ (c :: cs).flatMap toList ∧ c.last < f := by
  rw [List.flatMap_cons, List.mem_append, mem_toList]
  constructor
  · intro hf
    exact ⟨.inr hf, h.lt_of_mem_tail hf⟩
  · rintro ⟨hf | hf, hlt⟩
    · omega
    · exact hf

theorem first_le_of_mem (h : AreCut n (c :: cs)) {f : Nat} (hf : f ∈ (c :: cs).flatMap toList) :
    c.first ≤ f := by
  have hc := h.fits c (by simp)
  rw [List.flatMap_cons, List.mem_append, mem_toList] at hf
  rcases hf with hf | hf
  · exact hf.1
  · have := h.lt_of_mem_tail hf
    omega

theorem first_mem (h : AreCut n (c :: cs)) : c.first ∈ (c :: cs).flatMap toList := by
  have hc := h.fits c (by simp)
  rw [List.flatMap_cons, List.mem_append, mem_toList]
  exact .inl ⟨Nat.le_refl _, hc.1⟩

/-- The first chunk ends no earlier than another one that starts with it and holds frames of the
list only. -/
theorem last_le_of_subset (h : AreCut n (c :: cs)) (hd : d.last < d.first + n)
    (hfirst : d.first = c.first) (hsub : ∀ f ∈ d.toList, f ∈ (c :: cs).flatMap toList) :
    d.last ≤ c.last := by
  by_contra hlt
  have hc := h.fits c (by simp)
  have hmem : c.last + 1 ∈ d.toList := mem_toList.2 ⟨by omega, by omega⟩
  obtain ⟨e, he, hfe⟩ := List.mem_flatMap.1 (h.mem_tail_iff.2 ⟨hsub _ hmem, Nat.lt_succ_self _⟩)
  have hahead := (List.pairwise_cons.1 h.ahead).1 e he
  rw [mem_toList] at hfe
  simp only [Ahead] at hahead
  omega

theorem eq_of_forall_mem_iff (hcs : AreCut n cs) (hds : AreCut n ds)
    (h : ∀ f, f ∈ cs.flatMap toList ↔ f ∈ ds.flatMap toList) : cs = ds := by
  -- The first chunks start with the least frame and end at the same one; the frames above it are
  -- those of the other chunks.
  induction cs generalizing ds with
  | nil =>
    cases ds with
    | nil => rfl
    | cons d ds => simpa using (h _).2 hds.first_mem
  | cons c cs ih =>
    cases ds with
    | nil => simpa using (h _).1 hcs.first_mem
    | cons d ds =>
      have hfirst : c.first = d.first :=
        Nat.le_antisymm (hcs.first_le_of_mem ((h _).2 hds.first_mem))
          (hds.first_le_of_mem ((h _).1 hcs.first_mem))
      have hlast : c.last = d.last := by
        apply Nat.le_antisymm
        · refine hds.last_le_of_subset (hcs.fits c (by simp)).2 hfirst fun f hf => ?_
          exact (h f).1 (List.mem_flatMap.2 ⟨c, by simp, hf⟩)
        · refine hcs.last_le_of_subset (hds.fits d (by simp)).2 hfirst.symm fun f hf => ?_
          exact (h f).2 (List.mem_flatMap.2 ⟨d, by simp, hf⟩)
      have htail : cs = ds := by
        refine ih (hcs.sublist (List.sublist_cons_self c cs))
          (hds.sublist (List.sublist_cons_self d ds)) fun f => ?_
        rw [hcs.mem_tail_iff, hds.mem_tail_iff, h f, hlast]
      have hhead : c = d := by
        cases c
        cases d
        cases hfirst
        cases hlast
        rfl
      rw [hhead, htail]

end AreCut
end Chunk

namespace FrameSet

theorem areCut_cut {n : Nat} (hn : 0 < n) (s : FrameSet) : Chunk.AreCut n (s.cut n) where
  fits c hc := by
    have hb := bounds_of_mem_cut hn hc
    exact ⟨hb.1, hb.2.2⟩
  ahead := pairwise_ahead_cut hn s

/-- Some of the chunks of a set, listed in any order, make an expression that is parsed, and cutting
its frames gives just these chunks, in ascending order. -/
theorem chunks_of_chosen {size : Int} {s : FrameSet} {cs chosen : List Chunk}
    (h : s.chunks size = .ok cs) (hsub : chosen.Subperm cs) (hne : chosen ≠ []) :
    ∃ again sorted, parse (",".intercalate (chosen.map Chunk.text)) = .ok again ∧
      again.chunks size = .ok sorted ∧ sorted.Perm chosen ∧
      sorted.Pairwise (fun c d => c.last < d.first) := by
  obtain ⟨hsize, hlimit, rfl⟩ := chunks_eq_ok_iff.1 h
  have hn : 0 < size.toNat := by omega
  have hbounds : ∀ c ∈ chosen, c.first ≤ c.last ∧ c.last ≤ maxFrame := by
    intro c hc
    have hb := bounds_of_mem_cut hn (hsub.subset hc)
    exact ⟨hb.1, hb.2.1⟩
  obtain ⟨again, hagain, hframes⟩ := parse_intercalate_text hne hbounds
  obtain ⟨sorted, hperm, hsublist⟩ := hsub
  have hsorted := (areCut_cut hn s).sublist hsublist
  have hcut : again.cut size.toNat = sorted := by
    refine (areCut_cut hn again).eq_of_forall_mem_iff hsorted fun f => ?_
    rw [flatMap_toList_cut hn, mem_toList, hframes]
    simp only [List.mem_flatMap, hperm.mem_iff]
  refine ⟨again, sorted, hagain, chunks_eq_ok_iff.2 ⟨hsize, ?_, hcut⟩, hperm, ?_⟩
  · rw [← length_cut, hcut]
    exact Nat.le_trans hsublist.length_le (by rwa [length_cut])
  · exact hsorted.ahead.imp And.left

theorem chunks_of_chosen_twoRuns :
    ∃ again sorted, parse "10-11,3-4,1-2" = .ok again ∧ again.chunks 2 = .ok sorted ∧
      sorted.Perm [⟨10, 11⟩, ⟨3, 4⟩, ⟨1, 2⟩] ∧ sorted.Pairwise (fun c d => c.last < d.first) := by
  have hsub : List.Subperm [⟨10, 11⟩, ⟨3, 4⟩, ⟨1, 2⟩]
      ([⟨1, 2⟩, ⟨3, 4⟩, ⟨5, 5⟩, ⟨10, 11⟩, ⟨12, 12⟩] : List Chunk) :=
    ⟨[⟨1, 2⟩, ⟨3, 4⟩, ⟨10, 11⟩], by decide, by decide⟩
  have htext : ",".intercalate ([⟨10, 11⟩, ⟨3, 4⟩, ⟨1, 2⟩].map Chunk.text) = "10-11,3-4,1-2" := by
    decide +kernel
  rw [← htext]
  exact chunks_of_chosen chunks_twoRuns hsub (by decide)

end FrameSet
end RenderFarm

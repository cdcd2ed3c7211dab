import RenderFarm.Proofs.Frames.Counting

/-! Chunks cut again into smaller ones. The chunks of a run are counted from its start, so if the
smaller size divides the greater one, a full chunk ends where one of the smaller chunks ends, and a
chunk that is not full ends with its run. What is written for a chunk selects the frames of the chunk
and no others. So the smaller chunks of the greater ones are the smaller chunks of the set. -/
namespace RenderFarm

namespace FrameRun

variable {m n last first : Nat}

theorem takeChunks_of_full (h : first + (n - 1) ≤ last) :
    takeChunks n last first =
      ⟨first, first + (n - 1)⟩ :: takeChunks n last (first + (n - 1) + 1) := by
  rw [takeChunks_of_le (by omega), Nat.min_eq_right h]

theorem takeChunks_of_short (h : first ≤ last) (hshort : last ≤ first + (n - 1)) :
    takeChunks n last first = [⟨first, last⟩] := by
  rw [takeChunks_of_le h, Nat.min_eq_left hshort, takeChunks_of_lt (Nat.lt_succ_self last)]

/-- The chunks up to a frame with which a chunk ends, and the chunks from the next frame on. -/
theorem takeChunks_append {stop k : Nat} (hm : 0 < m) (hstop : stop + 1 = first + k * m)
    (hlast : stop ≤ last) :
    takeChunks m stop first ++ takeChunks m last (stop + 1) = takeChunks m last first := by
  -- The induction is on the number of full chunks up to `stop`.
  induction k generalizing first with
  | zero =>
    have hnext : stop + 1 = first := by simpa using hstop
    rw [takeChunks_of_lt (by omega), hnext, List.nil_append]
  | succ k ih =>
    rw [Nat.succ_mul] at hstop
    have hfull : first + (m - 1) ≤ stop := by omega
    have hfull' : first + (m - 1) ≤ last := by omega
    rw [takeChunks_of_full hfull, takeChunks_of_full hfull', List.cons_append, ih (by omega)]

/-- Greater chunks that are cut again give the smaller chunks. -/
theorem flatMap_takeChunks (hm : 0 < m) (hn : 0 < n) (hdvd : m ∣ n) (last first : Nat) :
    (takeChunks n last first).flatMap (fun c => takeChunks m c.last c.first) =
      takeChunks m last first := by
  induction first using takeChunks.induct n last with
  | case1 first hle ih =>
    by_cases hshort : last ≤ first + (n - 1)
    · rw [takeChunks_of_short hle hshort]
      simp
    · have hfull : first + (n - 1) ≤ last := by omega
      obtain ⟨k, rfl⟩ := hdvd
      have hstop : first + (m * k - 1) + 1 = first + k * m := by
        rw [Nat.mul_comm] at hn ⊢
        omega
      rw [Nat.min_eq_right hfull] at ih
      rw [takeChunks_of_full hfull, List.flatMap_cons, ih]
      exact takeChunks_append hm hstop hfull
  | case2 first hlt =>
    have hend := Nat.lt_of_not_le hlt
    rw [takeChunks_of_lt hend, takeChunks_of_lt hend, List.flatMap_nil]

end FrameRun

namespace FrameSet

def ofRun (r : FrameRun) : FrameSet := ⟨[r], List.pairwise_singleton _ r⟩

theorem text_ofRun (r : FrameRun) : (ofRun r).text = String.ofList r.text := by
  simp [text, ofRun]

theorem cut_ofRun (n : Nat) (r : FrameRun) : (ofRun r).cut n = r.cut n := by
  simp [cut, ofRun]

theorem parse_chunk_text {c : Chunk} (hc : c.first ≤ c.last) (hl : c.last ≤ maxFrame) :
    parse c.text = .ok (ofRun ⟨c.first, c.last, hc, hl⟩) := by
  have htext : c.text = (ofRun ⟨c.first, c.last, hc, hl⟩).text := by
    rw [text_ofRun, FrameRun.text_eq_chunk_text, String.ofList_toList]
  rw [htext]
  exact parse_text (List.cons_ne_nil _ _)

/-- The frames of a chunk, written as an expression and cut again. -/
def chunksAgain (size : Int) (c : Chunk) : Except JobError (List Chunk) := do
  (← parse c.text).chunks size

variable {size greater : Int} {s : FrameSet}

theorem chunksAgain_eq_ok {c : Chunk} (hsize : 1 ≤ size) (hc : c.first ≤ c.last)
    (hl : c.last ≤ maxFrame)
    (hlimit : (FrameRun.takeChunks size.toNat c.last c.first).length ≤ maxChunks) :
    chunksAgain size c = .ok (FrameRun.takeChunks size.toNat c.last c.first) := by
  have hcut : (ofRun ⟨c.first, c.last, hc, hl⟩).cut size.toNat =
      FrameRun.takeChunks size.toNat c.last c.first := by
    rw [cut_ofRun, FrameRun.cut_eq_takeChunks (by omega)]
  rw [chunksAgain, parse_chunk_text hc hl]
  refine chunks_eq_ok_iff.2 ⟨hsize, ?_, hcut⟩
  rwa [← length_cut, hcut]

theorem flatMap_cut {m n : Nat} (hm : 0 < m) (hn : 0 < n) (hdvd : m ∣ n) (s : FrameSet) :
    (s.cut n).flatMap (fun c => FrameRun.takeChunks m c.last c.first) = s.cut m := by
  rw [cut_eq_flatMap_takeChunks hn, cut_eq_flatMap_takeChunks hm, List.flatMap_assoc]
  apply List.flatMap_congr
  intro r _
  exact FrameRun.flatMap_takeChunks hm hn hdvd r.last r.first

/-- A set that is cut into chunks of some size is cut into chunks of any multiple of that size. Each
of these, written as an expression and cut into chunks of the smaller size, gives chunks of the set,
and one after another they give all of them. -/
theorem chunks_refine {fine : List Chunk} (h : s.chunks size = .ok fine) (hgreater : 1 ≤ greater)
    (hdvd : size ∣ greater) :
    ∃ coarse pieces, s.chunks greater = .ok coarse ∧
      coarse.mapM (chunksAgain size) = .ok pieces ∧ pieces.flatten = fine := by
  have hcoarse := chunks_of_le_size h (Int.le_of_dvd (by omega) hdvd)
  obtain ⟨hsize, hlimit, rfl⟩ := chunks_eq_ok_iff.1 h
  have hdvd' : size.toNat ∣ greater.toNat := by
    rwa [← Int.natCast_dvd_natCast, Int.toNat_of_nonneg (by omega), Int.toNat_of_nonneg (by omega)]
  have hpieces := flatMap_cut (by omega) (by omega) hdvd' s
  have hagain : ∀ c ∈ s.cut greater.toNat,
      chunksAgain size c = .ok (FrameRun.takeChunks size.toNat c.last c.first) := by
    intro c hc
    have hbounds := bounds_of_mem_cut (by omega) hc
    refine chunksAgain_eq_ok hsize hbounds.1 hbounds.2.1 ?_
    have hsome := List.sublist_flatten_of_mem
      (List.mem_map_of_mem hc (f := fun c => FrameRun.takeChunks size.toNat c.last c.first))
    rw [← List.flatMap_def, hpieces] at hsome
    rw [← length_cut] at hlimit
    exact Nat.le_trans hsome.length_le hlimit
  refine ⟨_, _, hcoarse, mapM_eq_pure hagain, ?_⟩
  rw [← List.flatMap_def, hpieces]

theorem chunks_refine_twoRuns :
    twoRuns.chunks 4 = .ok [⟨1, 4⟩, ⟨5, 5⟩, ⟨10, 12⟩] ∧
      ∃ pieces, [⟨1, 4⟩, ⟨5, 5⟩, ⟨10, 12⟩].mapM (chunksAgain 2) = .ok pieces ∧
        pieces.flatten = [⟨1, 2⟩, ⟨3, 4⟩, ⟨5, 5⟩, ⟨10, 11⟩, ⟨12, 12⟩] := by
  have hcoarse : twoRuns.chunks 4 = .ok [⟨1, 4⟩, ⟨5, 5⟩, ⟨10, 12⟩] := by decide
  obtain ⟨coarse, pieces, hgreater, hagain, hpieces⟩ :=
    chunks_refine chunks_twoRuns (by decide : (1 : Int) ≤ 4) (by decide)
  rw [hcoarse] at hgreater
  cases hgreater
  exact ⟨hcoarse, pieces, hagain, hpieces⟩

end FrameSet
end RenderFarm

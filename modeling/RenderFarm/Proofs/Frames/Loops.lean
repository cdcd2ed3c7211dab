import RenderFarm.Proofs.Frames.Partition

/-! Sets and chunks made in a loop. Runs that come by ascending first frames are merged in one pass:
each one is compared with the run before it only, and it is joined with that run or begins a new one.
A run is cut by taking chunks from its start as long as frames are left. The loops give the runs of a
set and the chunks of a run. -/
namespace RenderFarm

namespace FrameRun

/-- The chunks of at most `n` frames that are taken one after another, from the frame `first` on as
long as the frame `last` has not been passed. -/
def takeChunks (n last first : Nat) : List Chunk :=
  if first ≤ last then
    ⟨first, min last (first + (n - 1))⟩ :: takeChunks n last (min last (first + (n - 1)) + 1)
  else []
termination_by last + 1 - first

theorem takeChunks_of_le {n last first : Nat} (h : first ≤ last) :
    takeChunks n last first = ⟨first, min last (first + (n - 1))⟩ ::
      takeChunks n last (min last (first + (n - 1)) + 1) := by
  rw [takeChunks, if_pos h]

theorem takeChunks_of_lt {n last first : Nat} (h : last < first) : takeChunks n last first = [] := by
  rw [takeChunks, if_neg (Nat.not_le.2 h)]

/-- The chunk number `i` starts `i * n` frames after the first one. -/
theorem takeChunks_eq_map {n last first : Nat} (hn : 0 < n) (h : first ≤ last) :
    takeChunks n last first = (List.range ((last - first) / n + 1)).map fun i =>
      ⟨first + i * n, min last (first + i * n + (n - 1))⟩ := by
  -- The induction is on the number of full chunks that are certain to come before the last one.
  induction hk : (last - first) / n generalizing first with
  | zero =>
    have hshort : last - first < n := (Nat.div_eq_zero_iff_lt hn).1 hk
    rw [takeChunks_of_le h, takeChunks_of_lt (by omega)]
    simp
  | succ k ih =>
    have hfull : n ≤ last - first := by
      by_contra hshort
      rw [Nat.div_eq_of_lt (Nat.lt_of_not_le hshort)] at hk
      omega
    have hnext : min last (first + (n - 1)) + 1 = first + n := by omega
    have hrest : (last - (first + n)) / n = k := by
      rw [Nat.div_eq_sub_div hn hfull] at hk
      rw [← Nat.sub_sub]
      exact Nat.succ_inj.1 hk
    rw [takeChunks_of_le h, hnext, ih (by omega) hrest,
      List.range_succ_eq_map (n := k + 1), List.map_cons, List.map_map, Nat.zero_mul, Nat.add_zero]
    congr 1
    refine List.map_congr_left fun i _ => ?_
    simp only [Function.comp_apply, Nat.succ_mul, Nat.add_assoc, Nat.add_comm n]

/-- Cutting a run is taking chunks from its start. -/
theorem cut_eq_takeChunks {n : Nat} (hn : 0 < n) (r : FrameRun) :
    r.cut n = takeChunks n r.last r.first := by
  rw [takeChunks_eq_map hn r.first_le_last]
  rfl

end FrameRun

namespace FrameSet

/-- `r` and the ascending runs after it, joined where they meet or touch. -/
def mergeAfter (r : FrameRun) : List FrameRun → List FrameRun
  | [] => [r]
  | s :: t => if r.Before s then r :: mergeAfter s t else mergeAfter (r.hull s) t

def mergeAscending : List FrameRun → List FrameRun
  | [] => []
  | r :: t => mergeAfter r t

def Ascending (l : List FrameRun) : Prop := l.Pairwise fun r s => r.first ≤ s.first

variable {r x : FrameRun} {t : List FrameRun}

theorem first_hull_of_le {s : FrameRun} (h : r.first ≤ s.first) : (r.hull s).first = r.first :=
  Nat.min_eq_left h

theorem ascending_hull_cons {s : FrameRun} (h : Ascending (r :: s :: t)) :
    Ascending (r.hull s :: t) := by
  obtain ⟨hr, hs⟩ := List.pairwise_cons.1 h
  refine List.pairwise_cons.2 ⟨fun y hy => ?_, (List.pairwise_cons.1 hs).2⟩
  rw [first_hull_of_le (hr s (by simp))]
  exact hr y (by simp [hy])

theorem first_le_of_mem_mergeAfter (h : Ascending (r :: t)) (hx : x ∈ mergeAfter r t) :
    r.first ≤ x.first := by
  induction t generalizing r with
  | nil =>
    simp only [mergeAfter, List.mem_singleton] at hx
    simp [hx]
  | cons s t ih =>
    have hrs : r.first ≤ s.first := (List.pairwise_cons.1 h).1 s (by simp)
    simp only [mergeAfter] at hx
    split at hx
    · rcases List.mem_cons.1 hx with rfl | hx
      · exact Nat.le_refl _
      · exact Nat.le_trans hrs (ih (List.pairwise_cons.1 h).2 hx)
    · rw [← first_hull_of_le hrs]
      exact ih (ascending_hull_cons h) hx

theorem separated_mergeAfter (h : Ascending (r :: t)) :
    (mergeAfter r t).Pairwise FrameRun.Before := by
  induction t generalizing r with
  | nil => simp [mergeAfter]
  | cons s t ih =>
    simp only [mergeAfter]
    split
    · rename_i hrs
      have hst := (List.pairwise_cons.1 h).2
      refine List.pairwise_cons.2 ⟨fun x hx => ?_, ih hst⟩
      exact Nat.lt_of_lt_of_le hrs (first_le_of_mem_mergeAfter hst hx)
    · exact ih (ascending_hull_cons h)

theorem mem_mergeAfter {f : Nat} (h : Ascending (r :: t)) :
    (∃ x ∈ mergeAfter r t, f ∈ x) ↔ f ∈ r ∨ ∃ x ∈ t, f ∈ x := by
  induction t generalizing r with
  | nil => simp [mergeAfter]
  | cons s t ih =>
    simp only [mergeAfter]
    split
    · simp only [List.mem_cons, exists_eq_or_imp, ih (List.pairwise_cons.1 h).2]
    · rename_i hrs
      have hsr : ¬s.Before r := by
        have := (List.pairwise_cons.1 h).1 s (by simp)
        have := s.first_le_last
        simp only [FrameRun.Before]
        omega
      simp only [ih (ascending_hull_cons h), FrameRun.mem_hull hrs hsr, List.mem_cons,
        exists_eq_or_imp, or_assoc]

theorem separated_mergeAscending {l : List FrameRun} (h : Ascending l) :
    (mergeAscending l).Pairwise FrameRun.Before := by
  cases l with
  | nil => exact List.Pairwise.nil
  | cons r t => exact separated_mergeAfter h

theorem mem_mergeAscending {f : Nat} {l : List FrameRun} (h : Ascending l) :
    (∃ x ∈ mergeAscending l, f ∈ x) ↔ ∃ x ∈ l, f ∈ x := by
  cases l with
  | nil => rfl
  | cons r t =>
    simp only [mergeAscending, mem_mergeAfter h, List.mem_cons, exists_eq_or_imp]

/-- The runs of the set of some runs are these, brought into an ascending order and merged in one
pass, whatever their order is where first frames are equal. -/
theorem runs_ofRuns_eq_mergeAscending {l sorted : List FrameRun} (hperm : sorted.Perm l)
    (h : Ascending sorted) : (ofRuns l).runs = mergeAscending sorted := by
  have heq : ofRuns l = ⟨mergeAscending sorted, separated_mergeAscending h⟩ := by
    rw [eq_iff_forall_mem_iff]
    intro f
    rw [mem_ofRuns]
    simp only [mem_iff, mem_mergeAscending h, hperm.mem_iff]
  rw [heq]

theorem ascending_mergeSort (l : List FrameRun) :
    Ascending (l.mergeSort fun r s => r.first ≤ s.first) := by
  refine (List.pairwise_mergeSort ?_ ?_ l).imp of_decide_eq_true
  · intro r s t
    simpa using Nat.le_trans
  · intro r s
    simpa using Nat.le_total r.first s.first

theorem runs_ofRuns_eq_merge_mergeSort (l : List FrameRun) :
    (ofRuns l).runs = mergeAscending (l.mergeSort fun r s => r.first ≤ s.first) :=
  runs_ofRuns_eq_mergeAscending (List.mergeSort_perm l _) (ascending_mergeSort l)

theorem cut_eq_flatMap_takeChunks {n : Nat} (hn : 0 < n) (s : FrameSet) :
    s.cut n = s.runs.flatMap fun r => FrameRun.takeChunks n r.last r.first := by
  rw [cut]
  apply List.flatMap_congr
  intro r _
  exact FrameRun.cut_eq_takeChunks hn r

end FrameSet
end RenderFarm

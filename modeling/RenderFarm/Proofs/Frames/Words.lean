import RenderFarm.Proofs.Frames.Counting

/-! Frames in machine words. A frame number has 32 bits; sums, counts and the bounds of the loop are
computed with 64 bits, where arithmetic wraps around. Here all of that is done again in words, and a
word is accepted only if it is the number that was meant: a sum that wraps, a difference below zero,
an addition that stops at the greatest word or a cast that drops bits gives no result. A loop that
goes on forever would have to take such a word. All results are there, and they are those of
unbounded numbers. -/
namespace RenderFarm

namespace Word

/-- The word, if it is the number that is meant. -/
def exactly? (meant : Int) (w : UInt64) : Option UInt64 := if w.toNat = meant then some w else none

def add? (a b : UInt64) : Option UInt64 := exactly? (a.toNat + b.toNat) (a + b)

def sub? (a b : UInt64) : Option UInt64 := exactly? (a.toNat - b.toNat) (a - b)

def div? (a b : UInt64) : Option UInt64 := if b.toNat = 0 then none else some (a / b)

def saturatingAdd (a b : UInt64) : UInt64 :=
  if a.toNat + b.toNat < UInt64.size then a + b else .ofNat (UInt64.size - 1)

def saturatingAdd? (a b : UInt64) : Option UInt64 :=
  exactly? (a.toNat + b.toNat) (saturatingAdd a b)

def narrow? (w : UInt64) : Option UInt32 :=
  if w.toUInt32.toNat = w.toNat then some w.toUInt32 else none

def step (size : Int64) : UInt64 :=
  if size.toInt < 0 then .ofNat (UInt64.size - 1) else size.toUInt64

variable {a b n : Nat}

theorem exactly?_ofNat (h : n < UInt64.size) : exactly? n (.ofNat n) = some (.ofNat n) :=
  if_pos (congrArg Nat.cast (UInt64.toNat_ofNat_of_lt' h))

theorem toNat_of_exactly?_eq_some {meant : Int} {w v : UInt64} (h : exactly? meant w = some v) :
    v.toNat = meant := by
  rw [exactly?] at h
  split at h
  · cases h
    assumption
  · cases h

theorem add?_ofNat (h : a + b < UInt64.size) : add? (.ofNat a) (.ofNat b) = some (.ofNat (a + b)) := by
  have ha : (UInt64.ofNat a).toNat = a := UInt64.toNat_ofNat_of_lt' (by omega)
  have hb : (UInt64.ofNat b).toNat = b := UInt64.toNat_ofNat_of_lt' (by omega)
  rw [add?, ha, hb, ← UInt64.ofNat_add, ← Int.natCast_add]
  exact exactly?_ofNat h

theorem sub?_ofNat (hle : b ≤ a) (h : a < UInt64.size) :
    sub? (.ofNat a) (.ofNat b) = some (.ofNat (a - b)) := by
  have ha : (UInt64.ofNat a).toNat = a := UInt64.toNat_ofNat_of_lt' h
  have hb : (UInt64.ofNat b).toNat = b := UInt64.toNat_ofNat_of_lt' (by omega)
  rw [sub?, ha, hb, ← UInt64.ofNat_sub hle, ← Int.natCast_sub hle]
  exact exactly?_ofNat (by omega)

theorem div?_ofNat (hb : 0 < b) (ha : a < UInt64.size) (hsize : b < UInt64.size) :
    div? (.ofNat a) (.ofNat b) = some (.ofNat (a / b)) := by
  rw [div?, UInt64.toNat_ofNat_of_lt' hsize, if_neg (by omega), UInt64.ofNat_div ha hsize]

theorem saturatingAdd?_ofNat (h : a + b < UInt64.size) :
    saturatingAdd? (.ofNat a) (.ofNat b) = some (.ofNat (a + b)) := by
  have ha : (UInt64.ofNat a).toNat = a := UInt64.toNat_ofNat_of_lt' (by omega)
  have hb : (UInt64.ofNat b).toNat = b := UInt64.toNat_ofNat_of_lt' (by omega)
  have hsum : saturatingAdd (.ofNat a) (.ofNat b) = .ofNat a + .ofNat b := by
    rw [saturatingAdd, ha, hb, if_pos h]
  rw [saturatingAdd?, hsum]
  exact add?_ofNat h

theorem narrow?_ofNat (h : n ≤ maxFrame) : narrow? (.ofNat n) = some (.ofNat n) := by
  have h32 : n < UInt32.size := Nat.lt_succ_of_le h
  have h64 : n < UInt64.size := Nat.lt_trans h32 (by decide)
  rw [narrow?, UInt64.toUInt32_ofNat', UInt32.toNat_ofNat_of_lt' h32, UInt64.toNat_ofNat_of_lt' h64,
    if_pos rfl]

theorem toUInt64_ofNat (h : n ≤ maxFrame) : (UInt32.ofNat n).toUInt64 = .ofNat n :=
  UInt32.toUInt64_ofNat' (Nat.lt_succ_of_le h)

theorem step_eq_ofNat {size : Int64} (h : 1 ≤ size.toInt) : step size = .ofNat size.toInt.toNat := by
  have hnonneg : 0 ≤ size := Int64.le_iff_toInt_le.2 (by simpa using Int.le_trans (by decide) h)
  rw [step, if_neg (by omega), ← UInt64.ofNat_toNat (x := size.toUInt64),
    Int64.toNat_toUInt64_of_le hnonneg]
  rfl

end Word

structure WordRange where
  first : UInt32
  last : UInt32
  deriving DecidableEq

namespace WordRange

def ofRun (r : FrameRun) : WordRange := ⟨.ofNat r.first, .ofNat r.last⟩

def ofChunk (c : Chunk) : WordRange := ⟨.ofNat c.first, .ofNat c.last⟩

def toChunk (r : WordRange) : Chunk := ⟨r.first.toNat, r.last.toNat⟩

def extent? (r : WordRange) : Option UInt64 := Word.sub? r.last.toUInt64 r.first.toUInt64

def frameCount? (r : WordRange) : Option UInt64 := do
  Word.add? (← r.extent?) (.ofNat 1)

def chunkCount? (step : UInt64) (r : WordRange) : Option UInt64 := do
  Word.add? (← Word.div? (← r.extent?) step) (.ofNat 1)

def sum? (term : WordRange → Option UInt64) (ranges : List WordRange) : Option UInt64 :=
  ranges.foldlM (fun total r => do Word.add? total (← term r)) (.ofNat 0)

def mergeAfter? (r : WordRange) : List WordRange → Option (List WordRange)
  | [] => some [r]
  | s :: t => do
    let next ← Word.add? r.last.toUInt64 (.ofNat 1)
    if s.first.toUInt64 ≤ next then
      mergeAfter? (if r.last < s.last then ⟨r.first, s.last⟩ else r) t
    else
      return r :: (← mergeAfter? s t)

/-- The written ranges, sorted by their first frames and joined where they meet or touch. -/
def merge? (written : List WordRange) : Option (List WordRange) :=
  match written.mergeSort fun r s => r.first ≤ s.first with
  | [] => some []
  | r :: t => mergeAfter? r t

/-- One turn of the loop at the frame `first`: the range that is taken and where the loop goes on. -/
def turn? (step last first : UInt64) : Option (WordRange × UInt64) := do
  let reach ← Word.saturatingAdd? first (← Word.sub? step (.ofNat 1))
  let stop := if last ≤ reach then last else reach
  return (⟨← Word.narrow? first, ← Word.narrow? stop⟩, ← Word.add? stop (.ofNat 1))

/-- A turn without a wrong word leaves fewer frames, so that only a wrong word could make the loop
endless. -/
theorem sub_lt_of_turn?_eq_some {step last first next : UInt64} {r : WordRange} (h : first ≤ last)
    (hturn : turn? step last first = some (r, next)) :
    last.toNat + 1 - next.toNat < last.toNat + 1 - first.toNat := by
  simp only [turn?, Option.bind_eq_bind, Option.bind_eq_some_iff, Option.pure_def,
    Option.some.injEq, Prod.mk.injEq] at hturn
  obtain ⟨room, -, reach, hreach, -, -, -, -, after, hafter, -, rfl⟩ := hturn
  have hreach := Word.toNat_of_exactly?_eq_some hreach
  have hafter := Word.toNat_of_exactly?_eq_some hafter
  have hone : (UInt64.ofNat 1).toNat = 1 := by decide
  rw [UInt64.le_iff_toNat_le] at h
  have hstop : first.toNat ≤ (if last ≤ reach then last else reach).toNat := by
    split <;> omega
  omega

def takeChunks? (step last first : UInt64) : Option (List WordRange) :=
  if h : first ≤ last then
    match hturn : turn? step last first with
    | none => none
    | some (r, next) =>
      have := sub_lt_of_turn?_eq_some h hturn
      (takeChunks? step last next).map (r :: ·)
  else some []
termination_by last.toNat + 1 - first.toNat

def cut? (step : UInt64) (ranges : List WordRange) : Option (List WordRange) :=
  (ranges.mapM fun r => takeChunks? step r.last.toUInt64 r.first.toUInt64).map List.flatten

variable {n last first : Nat} {r : FrameRun} {t : List FrameRun}

theorem lt_size_of_le {n : Nat} (h : n ≤ maxFrame + 1) : n < UInt64.size :=
  Nat.lt_of_le_of_lt h (by decide)

theorem toChunk_ofChunk {c : Chunk} (hfirst : c.first ≤ maxFrame) (hlast : c.last ≤ maxFrame) :
    toChunk (ofChunk c) = c := by
  have h₁ : (UInt32.ofNat c.first).toNat = c.first :=
    UInt32.toNat_ofNat_of_lt' (Nat.lt_succ_of_le hfirst)
  have h₂ : (UInt32.ofNat c.last).toNat = c.last :=
    UInt32.toNat_ofNat_of_lt' (Nat.lt_succ_of_le hlast)
  rw [ofChunk, toChunk, h₁, h₂]

theorem toChunk_ofRun (r : FrameRun) : toChunk (ofRun r) = ⟨r.first, r.last⟩ :=
  toChunk_ofChunk (c := ⟨r.first, r.last⟩) (Nat.le_trans r.first_le_last r.last_le_maxFrame)
    r.last_le_maxFrame

theorem toUInt64_first (r : FrameRun) : (ofRun r).first.toUInt64 = .ofNat r.first :=
  Word.toUInt64_ofNat (Nat.le_trans r.first_le_last r.last_le_maxFrame)

theorem toUInt64_last (r : FrameRun) : (ofRun r).last.toUInt64 = .ofNat r.last :=
  Word.toUInt64_ofNat r.last_le_maxFrame

/-! ### Written ranges -/

theorem ofRun_hull {s : FrameRun} (h : r.first ≤ s.first) :
    ofRun (r.hull s) =
      if (ofRun r).last < (ofRun s).last then ⟨(ofRun r).first, (ofRun s).last⟩ else ofRun r := by
  have hr : r.last < UInt32.size := Nat.lt_succ_of_le r.last_le_maxFrame
  have hs : s.last < UInt32.size := Nat.lt_succ_of_le s.last_le_maxFrame
  have hlast : (ofRun r).last < (ofRun s).last ↔ r.last < s.last := UInt32.ofNat_lt_iff_lt hr hs
  simp only [hlast]
  split
  · rename_i hlt
    simp [ofRun, FrameRun.hull, Nat.min_eq_left h, Nat.max_eq_right (Nat.le_of_lt hlt)]
  · rename_i hle
    simp [ofRun, FrameRun.hull, Nat.min_eq_left h, Nat.max_eq_left (Nat.not_lt.1 hle)]

/-- The frame after the last one of a run is a word, also after the greatest frame; so the pass over
ascending runs joins and separates them as it should. -/
theorem mergeAfter?_ofRun (h : FrameSet.Ascending (r :: t)) :
    mergeAfter? (ofRun r) (t.map ofRun) = some ((FrameSet.mergeAfter r t).map ofRun) := by
  induction t generalizing r with
  | nil => rfl
  | cons s t ih =>
    have hr := r.last_le_maxFrame
    have hs := Nat.le_trans s.first_le_last s.last_le_maxFrame
    have hnext : Word.add? (.ofNat r.last) (.ofNat 1) = some (.ofNat (r.last + 1)) :=
      Word.add?_ofNat (lt_size_of_le (by omega))
    have hmeet : UInt64.ofNat s.first ≤ .ofNat (r.last + 1) ↔ ¬r.Before s := by
      rw [UInt64.ofNat_le_iff_le (lt_size_of_le (by omega)) (lt_size_of_le (by omega)),
        FrameRun.Before, Nat.not_lt]
    simp only [List.map_cons, mergeAfter?, FrameSet.mergeAfter, toUInt64_first, toUInt64_last,
      hnext, Option.bind_eq_bind, Option.bind_some, hmeet]
    by_cases hbefore : r.Before s
    · rw [if_neg (not_not.2 hbefore), if_pos hbefore, ih (List.pairwise_cons.1 h).2]
      rfl
    · have hle : r.first ≤ s.first := (List.pairwise_cons.1 h).1 s (by simp)
      rw [if_pos hbefore, if_neg hbefore, ← ofRun_hull hle]
      exact ih (FrameSet.ascending_hull_cons h)

theorem mergeSort_ofRun (l : List FrameRun) :
    (l.map ofRun).mergeSort (fun r s => r.first ≤ s.first) =
      (l.mergeSort fun r s => r.first ≤ s.first).map ofRun := by
  symm
  apply List.map_mergeSort
  intro r _ s _
  have hr := Nat.le_trans r.first_le_last r.last_le_maxFrame
  have hs := Nat.le_trans s.first_le_last s.last_le_maxFrame
  have hiff : (ofRun r).first ≤ (ofRun s).first ↔ r.first ≤ s.first :=
    UInt32.ofNat_le_iff_le (Nat.lt_succ_of_le hr) (Nat.lt_succ_of_le hs)
  simp only [hiff]

theorem merge?_ofRun (l : List FrameRun) :
    merge? (l.map ofRun) = some ((FrameSet.ofRuns l).runs.map ofRun) := by
  have hsorted := FrameSet.ascending_mergeSort l
  rw [merge?, mergeSort_ofRun, FrameSet.runs_ofRuns_eq_merge_mergeSort]
  generalize l.mergeSort (fun r s => r.first ≤ s.first) = sorted at hsorted
  cases sorted with
  | nil => rfl
  | cons r t => exact mergeAfter?_ofRun hsorted

/-! ### Counts -/

theorem extent?_ofRun (r : FrameRun) : (ofRun r).extent? = some (.ofNat (r.last - r.first)) := by
  have hr := r.last_le_maxFrame
  rw [extent?, toUInt64_first, toUInt64_last]
  exact Word.sub?_ofNat r.first_le_last (lt_size_of_le (by omega))

theorem frameCount?_ofRun (r : FrameRun) : (ofRun r).frameCount? = some (.ofNat r.size) := by
  have hr := r.last_le_maxFrame
  rw [frameCount?, extent?_ofRun]
  exact Word.add?_ofNat (lt_size_of_le (by omega))

theorem chunkCount?_ofRun (hn : 0 < n) (hsize : n < UInt64.size) (r : FrameRun) :
    (ofRun r).chunkCount? (.ofNat n) = some (.ofNat (r.chunkCount n)) := by
  have hr := r.last_le_maxFrame
  have hdiv : Word.div? (.ofNat (r.last - r.first)) (.ofNat n) =
      some (.ofNat ((r.last - r.first) / n)) :=
    Word.div?_ofNat hn (lt_size_of_le (by omega)) hsize
  have hle : (r.last - r.first) / n ≤ r.last - r.first := Nat.div_le_self _ _
  rw [chunkCount?, extent?_ofRun, Option.bind_eq_bind, Option.bind_some, hdiv]
  exact Word.add?_ofNat (lt_size_of_le (by omega))

/-- The running sum stays a word, because the whole sum is one. -/
theorem foldlM_add?_ofRun {term : WordRange → Option UInt64} {number : FrameRun → Nat}
    (hterm : ∀ r, term (ofRun r) = some (.ofNat (number r))) {total : Nat}
    (hfits : total + t.foldr (fun r k => number r + k) 0 < UInt64.size) :
    (t.map ofRun).foldlM (fun total r => do Word.add? total (← term r)) (.ofNat total) =
      some (.ofNat (total + t.foldr (fun r k => number r + k) 0)) := by
  induction t generalizing total with
  | nil => rfl
  | cons r t ih =>
    rw [List.foldr_cons, ← Nat.add_assoc] at hfits ⊢
    have hadd : Word.add? (.ofNat total) (.ofNat (number r)) = some (.ofNat (total + number r)) :=
      Word.add?_ofNat (by omega)
    rw [List.map_cons, List.foldlM_cons, hterm]
    simp only [Option.bind_eq_bind, Option.bind_some, hadd] at ih ⊢
    exact ih hfits

theorem sum?_ofRun {term : WordRange → Option UInt64} {number : FrameRun → Nat}
    (hterm : ∀ r, term (ofRun r) = some (.ofNat (number r)))
    (hfits : t.foldr (fun r k => number r + k) 0 < UInt64.size) :
    sum? term (t.map ofRun) = some (.ofNat (t.foldr (fun r k => number r + k) 0)) := by
  have hstart : 0 + t.foldr (fun r k => number r + k) 0 < UInt64.size := by rwa [Nat.zero_add]
  rw [sum?, foldlM_add?_ofRun hterm hstart, Nat.zero_add]

/-! ### The loop -/

theorem turn?_ofNat (hn : 0 < n) (hsize : n < 2 ^ 63) (hlast : last ≤ maxFrame)
    (h : first ≤ last) :
    turn? (.ofNat n) (.ofNat last) (.ofNat first) =
      some (ofChunk ⟨first, min last (first + (n - 1))⟩,
        .ofNat (min last (first + (n - 1)) + 1)) := by
  have hmax : maxFrame + 1 + 2 ^ 63 < UInt64.size := by decide
  have hroom : Word.sub? (.ofNat n) (.ofNat 1) = some (.ofNat (n - 1)) :=
    Word.sub?_ofNat hn (by omega)
  have hreach : Word.saturatingAdd? (.ofNat first) (.ofNat (n - 1)) =
      some (.ofNat (first + (n - 1))) :=
    Word.saturatingAdd?_ofNat (by omega)
  have hstop : (if UInt64.ofNat last ≤ .ofNat (first + (n - 1)) then UInt64.ofNat last
      else .ofNat (first + (n - 1))) = .ofNat (min last (first + (n - 1))) := by
    simp only [UInt64.ofNat_le_iff_le (a := last) (b := first + (n - 1)) (by omega) (by omega),
      Nat.min_def]
    split <;> rfl
  have hnext : Word.add? (.ofNat (min last (first + (n - 1)))) (.ofNat 1) =
      some (.ofNat (min last (first + (n - 1)) + 1)) :=
    Word.add?_ofNat (by omega)
  rw [turn?, hroom]
  simp only [Option.bind_eq_bind, Option.bind_some, hreach, hstop, hnext,
    Word.narrow?_ofNat (n := first) (by omega),
    Word.narrow?_ofNat (n := min last (first + (n - 1))) (by omega)]
  rfl

theorem takeChunks?_of_turn {step last first next : UInt64} {r : WordRange} (h : first ≤ last)
    (hturn : turn? step last first = some (r, next)) :
    takeChunks? step last first = (takeChunks? step last next).map (r :: ·) := by
  rw [takeChunks?, dif_pos h]
  split <;> simp_all

/-- Every turn of the loop is right, and its chunks are those that are taken with unbounded
numbers. -/
theorem takeChunks?_ofNat (hn : 0 < n) (hsize : n < 2 ^ 63) (hlast : last ≤ maxFrame)
    (hfirst : first ≤ maxFrame + 1) :
    takeChunks? (.ofNat n) (.ofNat last) (.ofNat first) =
      some ((FrameRun.takeChunks n last first).map ofChunk) := by
  have hword (f : Nat) (hf : f ≤ maxFrame + 1) : UInt64.ofNat f ≤ .ofNat last ↔ f ≤ last :=
    UInt64.ofNat_le_iff_le (lt_size_of_le hf) (lt_size_of_le (by omega))
  induction first using FrameRun.takeChunks.induct n last with
  | case1 first h ih =>
    have hturn := turn?_ofNat hn hsize hlast h
    rw [takeChunks?_of_turn ((hword first hfirst).2 h) hturn, ih (by omega),
      FrameRun.takeChunks_of_le h]
    rfl
  | case2 first h =>
    rw [takeChunks?, dif_neg (mt (hword first hfirst).1 h),
      FrameRun.takeChunks_of_lt (Nat.not_le.1 h)]
    rfl

theorem cut?_ofRun (hn : 0 < n) (hsize : n < 2 ^ 63) (s : FrameSet) :
    cut? (.ofNat n) (s.runs.map ofRun) = some ((s.cut n).map ofChunk) := by
  have hpart : ∀ r ∈ s.runs, takeChunks? (.ofNat n) (ofRun r).last.toUInt64
      (ofRun r).first.toUInt64 = some ((FrameRun.takeChunks n r.last r.first).map ofChunk) := by
    intro r _
    have hr := r.last_le_maxFrame
    have hle := r.first_le_last
    rw [toUInt64_first, toUInt64_last]
    exact takeChunks?_ofNat hn hsize hr (by omega)
  rw [cut?, List.mapM_map, FrameSet.cut_eq_flatMap_takeChunks hn, List.map_flatMap,
    List.flatMap_def]
  exact congrArg (Option.map List.flatten) (mapM_eq_pure hpart)

theorem map_toChunk_ofChunk_cut (hn : 0 < n) (s : FrameSet) :
    ((s.cut n).map ofChunk).map toChunk = s.cut n := by
  rw [List.map_map]
  conv_rhs => rw [← List.map_id (s.cut n)]
  refine List.map_congr_left fun c hc => ?_
  obtain ⟨hle, hlast, -⟩ := FrameSet.bounds_of_mem_cut hn hc
  exact toChunk_ofChunk (Nat.le_trans hle hlast) hlast

theorem frameCount?_ofChunk {c : Chunk} (h : c.first ≤ c.last) (hlast : c.last ≤ maxFrame) :
    (ofChunk c).frameCount? = some (.ofNat (c.last - c.first + 1)) :=
  frameCount?_ofRun ⟨c.first, c.last, h, hlast⟩

end WordRange

namespace FrameSet

variable {s : FrameSet}

theorem size_le (s : FrameSet) : s.size ≤ maxFrame + 1 := by
  have hnodup : s.toList.Nodup := (pairwise_lt_toList s).imp Nat.ne_of_lt
  have hsub : s.toList ⊆ List.range (maxFrame + 1) := by
    intro f hf
    obtain ⟨r, -, hr⟩ := mem_toList.1 hf
    have hlast := r.last_le_maxFrame
    rw [FrameRun.mem_iff] at hr
    exact List.mem_range.2 (by omega)
  have hle := (hnodup.subperm hsub).length_le
  rwa [length_toList, List.length_range] at hle

theorem chunkCount_le_size {n : Nat} (hn : 0 < n) (s : FrameSet) : s.chunkCount n ≤ s.size := by
  have hone : s.chunkCount 1 = s.size := by
    refine List.foldr_ext _ _ _ fun r _ k => ?_
    rw [FrameRun.chunkCount, FrameRun.size, Nat.div_one]
  rw [← hone, ← length_cut, ← length_cut]
  exact length_cut_le_of_le (by decide) hn s

theorem sum?_frameCount? (s : FrameSet) :
    WordRange.sum? WordRange.frameCount? (s.runs.map WordRange.ofRun) = some (.ofNat s.size) := by
  have hle := size_le s
  exact WordRange.sum?_ofRun WordRange.frameCount?_ofRun (WordRange.lt_size_of_le hle)

theorem sum?_chunkCount? {n : Nat} (hn : 0 < n) (hsize : n < UInt64.size) (s : FrameSet) :
    WordRange.sum? (WordRange.chunkCount? (.ofNat n)) (s.runs.map WordRange.ofRun) =
      some (.ofNat (s.chunkCount n)) := by
  have hle := Nat.le_trans (chunkCount_le_size hn s) (size_le s)
  exact WordRange.sum?_ofRun (WordRange.chunkCount?_ofRun hn hsize) (WordRange.lt_size_of_le hle)

/-- All that is computed in words about an expression and a chunk size is what is computed with
unbounded numbers, because every word on the way is the number that was meant: the runs of the set,
how many frames it has, how many chunks, the chunks, and how many frames each of them has. The loop
ends after as many turns as there are chunks, also where the limit keeps it from being run. -/
theorem words_exact {expression : String} (h : parse expression = .ok s) {size : Int64}
    (hsize : 1 ≤ size.toInt) :
    ∃ written : List FrameRun, (tokens expression).map readToken = written.map .ok ∧
      ∃ runs, WordRange.merge? (written.map WordRange.ofRun) = some runs ∧
        runs.map WordRange.toChunk = s.runs.map (fun r => ⟨r.first, r.last⟩) ∧
        (∃ frames, WordRange.sum? WordRange.frameCount? runs = some frames ∧
          frames.toNat = s.size) ∧
        ∃ count, WordRange.sum? (WordRange.chunkCount? (Word.step size)) runs = some count ∧
          ∃ made, WordRange.cut? (Word.step size) runs = some made ∧ made.length = count.toNat ∧
            (s.chunks size.toInt =
              if maxChunks < count.toNat then
                .error (.badFrames s.text (.tooManyChunks size.toInt count.toNat))
              else .ok (made.map WordRange.toChunk)) ∧
            ∀ r ∈ made, ∃ frames, r.frameCount? = some frames ∧
              r.toChunk.frameCount? = some frames.toNat := by
  obtain ⟨-, written, hwritten, hruns⟩ := parse_eq_ok_iff.1 h
  have hn : 0 < size.toInt.toNat := by omega
  have hbound : size.toInt.toNat < 2 ^ 63 := by
    have := Int64.toInt_lt size
    omega
  have hsum := size_le s
  have hcount := Nat.le_trans (chunkCount_le_size hn s) hsum
  refine ⟨written, hwritten, s.runs.map WordRange.ofRun, ?_, ?_,
    ⟨_, sum?_frameCount? s, UInt64.toNat_ofNat_of_lt' (WordRange.lt_size_of_le hsum)⟩, ?_⟩
  · rw [WordRange.merge?_ofRun, hruns]
  · rw [List.map_map]
    exact List.map_congr_left fun r _ => WordRange.toChunk_ofRun r
  rw [Word.step_eq_ofNat hsize]
  refine ⟨_, sum?_chunkCount? hn (Nat.lt_trans hbound (by decide)) s, _,
    WordRange.cut?_ofRun hn hbound s, ?_, ?_, ?_⟩
  · rw [List.length_map, length_cut,
      UInt64.toNat_ofNat_of_lt' (WordRange.lt_size_of_le hcount)]
  · rw [UInt64.toNat_ofNat_of_lt' (WordRange.lt_size_of_le hcount),
      WordRange.map_toChunk_ofChunk_cut hn, chunks, if_neg (by omega)]
    rfl
  · intro r hr
    obtain ⟨c, hc, rfl⟩ := List.mem_map.1 hr
    obtain ⟨hle, hlast, -⟩ := bounds_of_mem_cut hn hc
    refine ⟨_, WordRange.frameCount?_ofChunk hle hlast, ?_⟩
    rw [WordRange.toChunk_ofChunk (Nat.le_trans hle hlast) hlast, Chunk.frameCount?, if_pos hle,
      UInt64.toNat_ofNat_of_lt' (WordRange.lt_size_of_le (by omega))]

def endRuns : FrameSet :=
  ⟨[⟨0, 0, by decide, by decide⟩, ⟨4294967290, 4294967295, by decide, by decide⟩], by decide⟩

theorem words_exact_endRuns :
    parse "4294967293-4294967295 4294967290-4294967294,0" = .ok endRuns ∧
      ∃ runs, runs.map WordRange.toChunk = [⟨0, 0⟩, ⟨4294967290, 4294967295⟩] ∧
        (∃ frames, WordRange.sum? WordRange.frameCount? runs = some frames ∧ frames.toNat = 7) ∧
        ∃ made, WordRange.cut? (Word.step Int64.maxValue) runs = some made ∧
          made.map WordRange.toChunk = [⟨0, 0⟩, ⟨4294967290, 4294967295⟩] := by
  have hparse : parse "4294967293-4294967295 4294967290-4294967294,0" = .ok endRuns := by
    decide +kernel
  have hchunks : endRuns.chunks Int64.maxValue.toInt =
      .ok [⟨0, 0⟩, ⟨4294967290, 4294967295⟩] := by
    decide +kernel
  have hsize : 1 ≤ Int64.maxValue.toInt := by decide
  obtain ⟨-, -, runs, -, hruns, hframes, count, -, made, hmade, -, hequal, -⟩ :=
    words_exact hparse hsize
  refine ⟨hparse, runs, hruns, hframes, made, hmade, ?_⟩
  rw [hchunks] at hequal
  split at hequal
  · cases hequal
  · exact (Except.ok.inj hequal).symm

end FrameSet
end RenderFarm

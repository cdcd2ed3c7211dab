import RenderFarm.Datum
import RenderFarm.Job.Error

/-! Sets of frames, the expressions that name them, and the chunks that they are rendered in. A
set is kept as its maximal runs in ascending order, so that sets with the same frames are equal;
inserting a run joins it with the runs that it meets or touches. In an expression the leftmost bad
token decides what is reported, and in it the first number before the second and both before their
order. A chunk is rendered by one task: a run is cut at every n-th frame, so that only its last
chunk can be shorter, and no chunk spans two runs. -/
namespace RenderFarm

def maxFrame : Nat := 4294967295

structure FrameRun where
  first : Nat
  last : Nat
  first_le_last : first ≤ last := by omega
  last_le_maxFrame : last ≤ maxFrame := by omega
  deriving DecidableEq

namespace FrameRun

instance : Membership Nat FrameRun := ⟨fun r f => r.first ≤ f ∧ f ≤ r.last⟩

theorem mem_iff {f : Nat} {r : FrameRun} : f ∈ r ↔ r.first ≤ f ∧ f ≤ r.last := Iff.rfl

instance (f : Nat) (r : FrameRun) : Decidable (f ∈ r) :=
  inferInstanceAs (Decidable (r.first ≤ f ∧ f ≤ r.last))

def single (f : Nat) (h : f ≤ maxFrame) : FrameRun := ⟨f, f, Nat.le_refl f, h⟩

def size (r : FrameRun) : Nat := r.last - r.first + 1

def toList (r : FrameRun) : List Nat := List.range' r.first r.size

@[simp] theorem length_toList (r : FrameRun) : r.toList.length = r.size := by simp [toList]

@[simp] theorem mem_toList {f : Nat} {r : FrameRun} : f ∈ r.toList ↔ f ∈ r := by
  have := r.first_le_last
  simp only [toList, size, List.mem_range'_1, mem_iff]
  omega

/-- At least one frame lies between the last frame of `r` and the first of `s`. -/
def Before (r s : FrameRun) : Prop := r.last + 1 < s.first

instance (r s : FrameRun) : Decidable (r.Before s) :=
  inferInstanceAs (Decidable (r.last + 1 < s.first))

/-- The least run that holds two others. -/
def hull (r s : FrameRun) : FrameRun where
  first := min r.first s.first
  last := max r.last s.last
  first_le_last := by have := r.first_le_last; omega
  last_le_maxFrame := by have := r.last_le_maxFrame; have := s.last_le_maxFrame; omega

theorem mem_hull {f : Nat} {r s : FrameRun} (h₁ : ¬r.Before s) (h₂ : ¬s.Before r) :
    f ∈ r.hull s ↔ f ∈ r ∨ f ∈ s := by
  have := r.first_le_last
  have := s.first_le_last
  simp only [Before] at h₁ h₂
  simp only [mem_iff, hull]
  omega

def text (r : FrameRun) : List Char :=
  if r.first = r.last then Text.decimal r.first
  else Text.decimal r.first ++ '-' :: Text.decimal r.last

end FrameRun

/-- A set of frames, kept as its maximal runs of consecutive frames in ascending order. -/
structure FrameSet where
  runs : List FrameRun
  separated : runs.Pairwise FrameRun.Before
  deriving DecidableEq

namespace FrameSet

/-- The runs that remain after `r` is joined with those that it meets or touches. -/
def insertRun (r : FrameRun) : List FrameRun → List FrameRun
  | [] => [r]
  | s :: t =>
    if r.Before s then r :: s :: t
    else if s.Before r then s :: insertRun r t
    else insertRun (r.hull s) t

theorem before_of_mem_insertRun {p r x : FrameRun} {t : List FrameRun} (hr : p.Before r)
    (ht : ∀ y ∈ t, p.Before y) (hx : x ∈ insertRun r t) : p.Before x := by
  induction t generalizing r with
  | nil => simp_all [insertRun]
  | cons s t ih =>
    have hs := ht s (by simp)
    have ht' : ∀ y ∈ t, p.Before y := fun y hy => ht y (by simp [hy])
    simp only [insertRun] at hx
    split at hx
    · rcases List.mem_cons.1 hx with rfl | hx
      · exact hr
      · exact ht x hx
    · split at hx
      · rcases List.mem_cons.1 hx with rfl | hx
        · exact hs
        · exact ih hr ht' hx
      · refine ih ?_ ht' hx
        simp only [FrameRun.Before, FrameRun.hull] at hr hs ⊢
        omega

theorem separated_insertRun {t : List FrameRun} (h : t.Pairwise FrameRun.Before) (r : FrameRun) :
    (insertRun r t).Pairwise FrameRun.Before := by
  induction t generalizing r with
  | nil => simp [insertRun]
  | cons s t ih =>
    obtain ⟨hs, ht⟩ := List.pairwise_cons.1 h
    simp only [insertRun]
    split
    · rename_i hr
      refine List.pairwise_cons.2 ⟨fun x hx => ?_, h⟩
      rcases List.mem_cons.1 hx with rfl | hx
      · exact hr
      · have := hs x hx
        have := s.first_le_last
        simp only [FrameRun.Before] at *
        omega
    · split
      · rename_i hsr
        exact List.pairwise_cons.2 ⟨fun x hx => before_of_mem_insertRun hsr hs hx, ih ht r⟩
      · exact ih ht _

theorem mem_insertRun {f : Nat} {r : FrameRun} {t : List FrameRun} :
    (∃ x ∈ insertRun r t, f ∈ x) ↔ f ∈ r ∨ ∃ x ∈ t, f ∈ x := by
  induction t generalizing r with
  | nil => simp [insertRun]
  | cons s t ih =>
    simp only [insertRun]
    split
    · simp
    · split
      · simp only [List.mem_cons, exists_eq_or_imp, ih]
        exact or_left_comm
      · rename_i h₁ h₂
        simp only [ih, FrameRun.mem_hull h₁ h₂, List.mem_cons, exists_eq_or_imp, or_assoc]

def empty : FrameSet := ⟨[], List.Pairwise.nil⟩

def isEmpty (s : FrameSet) : Bool := s.runs.isEmpty

def insert (r : FrameRun) (s : FrameSet) : FrameSet :=
  ⟨insertRun r s.runs, separated_insertRun s.separated r⟩

/-- The frames of all the given runs, which may overlap and come in any order. -/
def ofRuns (l : List FrameRun) : FrameSet := l.foldr insert empty

instance : Membership Nat FrameSet := ⟨fun s f => ∃ r ∈ s.runs, f ∈ r⟩

theorem mem_iff {f : Nat} {s : FrameSet} : f ∈ s ↔ ∃ r ∈ s.runs, f ∈ r := Iff.rfl

@[simp] theorem not_mem_empty {f : Nat} : f ∉ empty := by simp [mem_iff, empty]

@[simp] theorem mem_insert {f : Nat} {r : FrameRun} {s : FrameSet} :
    f ∈ s.insert r ↔ f ∈ r ∨ f ∈ s :=
  mem_insertRun

@[simp] theorem mem_ofRuns {f : Nat} {l : List FrameRun} : f ∈ ofRuns l ↔ ∃ r ∈ l, f ∈ r := by
  induction l with
  | nil => simp [ofRuns]
  | cons r l ih =>
    simp only [List.mem_cons, exists_eq_or_imp, ← ih]
    exact mem_insert

def contains (s : FrameSet) (f : Nat) : Bool := s.runs.any fun r => decide (f ∈ r)

@[simp] theorem contains_iff {f : Nat} {s : FrameSet} : s.contains f = true ↔ f ∈ s := by
  simp [contains, mem_iff]

def size (s : FrameSet) : Nat := s.runs.foldr (fun r n => r.size + n) 0

def toList (s : FrameSet) : List Nat := s.runs.flatMap FrameRun.toList

/-- The least frames of the given runs, as many as asked for. -/
def leastOfRuns : Nat → List FrameRun → List Nat
  | 0, _ => []
  | _, [] => []
  | n + 1, r :: t =>
    List.range' r.first (min (n + 1) r.size) ++ leastOfRuns (n + 1 - r.size) t

def least (n : Nat) (s : FrameSet) : List Nat := leastOfRuns n s.runs

theorem leastOfRuns_eq_take (n : Nat) (t : List FrameRun) :
    leastOfRuns n t = (t.flatMap FrameRun.toList).take n := by
  induction t generalizing n with
  | nil => cases n <;> simp [leastOfRuns]
  | cons r t ih =>
    cases n with
    | zero => simp [leastOfRuns]
    | succ n =>
      simp only [leastOfRuns, ih, List.flatMap_cons, List.take_append, FrameRun.length_toList]
      congr 1
      exact List.ext_getElem (by simp) fun i _ _ => by simp [FrameRun.toList]

theorem least_eq_take (n : Nat) (s : FrameSet) : s.least n = s.toList.take n :=
  leastOfRuns_eq_take n s.runs

/-- The compact expression of the set: its runs, separated by commas. -/
def text (s : FrameSet) : String :=
  String.ofList (List.intercalate [','] (s.runs.map FrameRun.text))

def isSeparator (c : Char) : Bool := c == ',' || Text.isBlank c

def tokens (expression : String) : List (List Char) := Text.pieces isSeparator expression.toList

abbrev Frame := { n : Nat // n ≤ maxFrame }

def readFrame (token digits : List Char) : Except FrameFault Frame :=
  match Text.readDecimal? digits with
  | none => .error (.malformed (String.ofList token))
  | some n =>
    if h : n ≤ maxFrame then .ok ⟨n, h⟩
    else .error (.outOfRange (String.ofList digits) (String.ofList token))

/-- A token at its first hyphen: what precedes it and, if there is one, what follows it. -/
def splitToken (token : List Char) : List Char × Option (List Char) :=
  (token.takeWhile (· != '-'), (token.dropWhile (· != '-')).tail?)

def readToken (token : List Char) : Except FrameFault FrameRun :=
  match splitToken token with
  | (digits, none) => (readFrame token digits).map fun f => .single f.1 f.2
  | (start, some stop) => do
    let a ← readFrame token start
    let b ← readFrame token stop
    if h : a.1 ≤ b.1 then .ok ⟨a.1, b.1, h, b.2⟩ else .error (.reversed (String.ofList token))

def parse (expression : String) : Except JobError FrameSet :=
  match tokens expression with
  | [] => .error (.badFrames expression .noFrames)
  | ts =>
    match ts.mapM readToken with
    | .ok runs => .ok (ofRuns runs)
    | .error fault => .error (.badFrames expression fault)

end FrameSet

/-- A range of frames for one task. -/
structure Chunk where
  first : Nat
  last : Nat
  deriving DecidableEq

namespace Chunk

/-- How many frames the chunk holds; a range that ends before it starts has no count. -/
def frameCount? (c : Chunk) : Option Nat :=
  if c.first ≤ c.last then some (c.last - c.first + 1) else none

def toList (c : Chunk) : List Nat := List.range' c.first (c.last + 1 - c.first)

@[simp] theorem length_toList (c : Chunk) : c.toList.length = c.last + 1 - c.first := by
  simp [toList]

@[simp] theorem mem_toList {f : Nat} {c : Chunk} : f ∈ c.toList ↔ c.first ≤ f ∧ f ≤ c.last := by
  simp only [toList, List.mem_range'_1]
  omega

def text (c : Chunk) : String :=
  if c.first = c.last then toString c.first else toString c.first ++ "-" ++ toString c.last

/-- The chunk as the renderer reads it: a frame, or two around two dots. -/
def renderRange (c : Chunk) : String :=
  if c.first = c.last then toString c.first else toString c.first ++ ".." ++ toString c.last

def fieldNames : List String := ["first", "last"]

def toDatum (c : Chunk) : Datum :=
  .record (fieldNames.zip [some (.int c.first), some (.int c.last)])

def frame? (d : Datum) : Option Nat := (d.intWithin? 0 maxFrame).map Int.toNat

def ofDatum? (d : Datum) : Option Chunk :=
  match d.fields? true fieldNames with
  | some [first, last] => do
    some ⟨← Datum.required frame? first, ← Datum.required frame? last⟩
  | _ => none

end Chunk

def FrameRun.chunkCount (n : Nat) (r : FrameRun) : Nat := (r.last - r.first) / n + 1

/-- The chunk number `i` of the run, all before it having `n` frames. -/
def FrameRun.chunkAt (n : Nat) (r : FrameRun) (i : Nat) : Chunk :=
  ⟨r.first + i * n, min r.last (r.first + i * n + (n - 1))⟩

def FrameRun.cut (n : Nat) (r : FrameRun) : List Chunk :=
  (List.range (r.chunkCount n)).map (r.chunkAt n)

namespace FrameSet

def chunkCount (n : Nat) (s : FrameSet) : Nat := s.runs.foldr (fun r k => r.chunkCount n + k) 0

/-- The set cut into chunks of at most `size` frames, run by run. -/
def chunks (size : Int) (s : FrameSet) : Except JobError (List Chunk) :=
  if size < 1 then .error (.badChunkSize size)
  else
    let count := s.chunkCount size.toNat
    if maxChunks < count then .error (.badFrames s.text (.tooManyChunks size count))
    else .ok (s.runs.flatMap (FrameRun.cut size.toNat))

end FrameSet
end RenderFarm

import RenderFarm.Frames
import RenderFarm.Proofs.Text

/-! What frame expressions mean. A token names one frame or a range of them, and an expression
selects the frames that its tokens name. Parsing succeeds only on expressions all of whose tokens
name frames, and then it gives the set of the selected ones, whatever their order and overlaps; the
frames of a set are listed in ascending order. -/
namespace RenderFarm
namespace FrameSet

/-- The token names the frames from `a` to `b`: it is a number, or two numbers around a hyphen. -/
inductive Names : List Char → Nat → Nat → Prop
  | frame {digits : List Char} {n : Nat} (read : Text.readDecimal? digits = some n)
      (bound : n ≤ maxFrame) : Names digits n n
  | range {start stop : List Char} {a b : Nat} (first : Text.readDecimal? start = some a)
      (last : Text.readDecimal? stop = some b) (order : a ≤ b) (bound : b ≤ maxFrame) :
      Names (start ++ '-' :: stop) a b

/-- The expression selects the frame: one of its tokens names a range that holds it. -/
def Selects (expression : String) (f : Nat) : Prop :=
  ∃ token ∈ tokens expression, ∃ a b, Names token a b ∧ a ≤ f ∧ f ≤ b

theorem hyphen_not_mem_of_readDecimal? {digits : List Char} {n : Nat}
    (h : Text.readDecimal? digits = some n) : '-' ∉ digits := by
  obtain ⟨⟨-, hdigits⟩, -⟩ := Text.readDecimal?_eq_some_iff.1 h
  exact Text.not_mem_of_all_isDigit hdigits (by decide)

theorem splitToken_of_not_mem {token : List Char} (h : '-' ∉ token) :
    splitToken token = (token, none) := by
  rw [splitToken, Text.takeWhile_bne_of_not_mem h, Text.dropWhile_bne_of_not_mem h]
  rfl

theorem splitToken_append {start : List Char} (h : '-' ∉ start) (stop : List Char) :
    splitToken (start ++ '-' :: stop) = (start, some stop) := by
  rw [splitToken, Text.takeWhile_bne_append_cons h, Text.dropWhile_bne_append_cons h]
  rfl

theorem readFrame_eq_ok_iff {token digits : List Char} {f : Frame} :
    readFrame token digits = .ok f ↔ Text.readDecimal? digits = some f.1 := by
  unfold readFrame
  cases hd : Text.readDecimal? digits with
  | none => simp
  | some n =>
    by_cases hn : n ≤ maxFrame
    · simp [hn, Subtype.ext_iff]
    · have hf := f.2
      simp only [hn, dite_false, Option.some.injEq, reduceCtorEq, false_iff]
      omega

theorem readToken_of_not_mem {token : List Char} (h : '-' ∉ token) :
    readToken token = (readFrame token token).map fun f => .single f.1 f.2 := by
  simp [readToken, splitToken_of_not_mem h]

theorem readToken_append {start : List Char} (h : '-' ∉ start) (stop : List Char) :
    readToken (start ++ '-' :: stop) = (do
      let a ← readFrame (start ++ '-' :: stop) start
      let b ← readFrame (start ++ '-' :: stop) stop
      if h : a.1 ≤ b.1 then .ok ⟨a.1, b.1, h, b.2⟩
      else .error (.reversed (String.ofList (start ++ '-' :: stop)))) := by
  simp [readToken, splitToken_append h]

theorem names_of_readToken {token : List Char} {r : FrameRun} (h : readToken token = .ok r) :
    Names token r.first r.last := by
  by_cases hm : '-' ∈ token
  · obtain ⟨start, stop, rfl, hs⟩ := List.eq_append_cons_of_mem hm
    rw [readToken_append hs] at h
    cases ha : readFrame (start ++ '-' :: stop) start with
    | error e => simp [ha, bind, Except.bind] at h
    | ok a =>
      cases hb : readFrame (start ++ '-' :: stop) stop with
      | error e => simp [ha, hb, bind, Except.bind] at h
      | ok b =>
        simp only [ha, hb, bind, Except.bind] at h
        split at h
        · rename_i hab
          cases h
          exact .range (readFrame_eq_ok_iff.1 ha) (readFrame_eq_ok_iff.1 hb) hab b.2
        · simp at h
  · rw [readToken_of_not_mem hm] at h
    cases hf : readFrame token token with
    | error e => simp [hf, Except.map] at h
    | ok f =>
      simp only [hf, Except.map, Except.ok.injEq] at h
      subst h
      exact .frame (readFrame_eq_ok_iff.1 hf) f.2

theorem readToken_of_names {token : List Char} {a b : Nat} (h : Names token a b) :
    ∃ r, readToken token = .ok r ∧ r.first = a ∧ r.last = b := by
  cases h with
  | frame read bound =>
    have hf : readFrame token token = .ok ⟨a, bound⟩ := readFrame_eq_ok_iff.2 read
    refine ⟨.single a bound, ?_, rfl, rfl⟩
    rw [readToken_of_not_mem (hyphen_not_mem_of_readDecimal? read), hf]
    rfl
  | @range start stop _ _ first last order bound =>
    have ha : readFrame (start ++ '-' :: stop) start = .ok ⟨a, by omega⟩ :=
      readFrame_eq_ok_iff.2 first
    have hb : readFrame (start ++ '-' :: stop) stop = .ok ⟨b, bound⟩ :=
      readFrame_eq_ok_iff.2 last
    refine ⟨⟨a, b, order, bound⟩, ?_, rfl, rfl⟩
    rw [readToken_append (hyphen_not_mem_of_readDecimal? first), ha, hb]
    simp [bind, Except.bind, order]

theorem mapM_readToken_eq_ok_iff {ts : List (List Char)} {runs : List FrameRun} :
    ts.mapM readToken = .ok runs ↔ ts.map readToken = runs.map .ok := by
  induction ts generalizing runs with
  | nil => cases runs <;> simp [pure, Except.pure]
  | cons t ts ih =>
    rw [List.mapM_cons]
    cases ht : readToken t with
    | error e => cases runs <;> simp [bind, Except.bind, ht]
    | ok r =>
      cases hts : ts.mapM readToken with
      | error e => cases runs <;> simp [bind, Except.bind, ht, ← ih, hts]
      | ok rs => cases runs <;> simp [bind, Except.bind, pure, Except.pure, ht, ← ih, hts]

theorem parse_eq_ok_iff {expression : String} {s : FrameSet} :
    parse expression = .ok s ↔
      tokens expression ≠ [] ∧ ∃ runs : List FrameRun,
        (tokens expression).map readToken = runs.map .ok ∧ ofRuns runs = s := by
  unfold parse
  cases ht : tokens expression with
  | nil => simp
  | cons t ts =>
    simp only [← mapM_readToken_eq_ok_iff]
    cases (t :: ts).mapM readToken <;> simp

theorem exists_fault_of_parse_eq_error {expression : String} {e : JobError}
    (h : parse expression = .error e) : ∃ fault, e = .badFrames expression fault := by
  unfold parse at h
  cases ht : tokens expression with
  | nil =>
    simp only [ht, Except.error.injEq] at h
    exact ⟨.noFrames, h.symm⟩
  | cons t ts =>
    simp only [ht] at h
    cases hm : (t :: ts).mapM readToken with
    | error fault =>
      simp only [hm, Except.error.injEq] at h
      exact ⟨fault, h.symm⟩
    | ok runs => simp [hm] at h

/-- A parsed set holds just the frames that the expression selects. -/
theorem mem_iff_selects {expression : String} {s : FrameSet} (h : parse expression = .ok s)
    (f : Nat) : f ∈ s ↔ Selects expression f := by
  obtain ⟨_, runs, hruns, rfl⟩ := parse_eq_ok_iff.1 h
  rw [mem_ofRuns]
  constructor
  · rintro ⟨r, hr, hf⟩
    have hmem : Except.ok r ∈ (tokens expression).map readToken :=
      hruns ▸ List.mem_map.2 ⟨r, hr, rfl⟩
    obtain ⟨t, ht, hread⟩ := List.mem_map.1 hmem
    exact ⟨t, ht, r.first, r.last, names_of_readToken hread, hf⟩
  · rintro ⟨t, ht, a, b, hn, hf⟩
    obtain ⟨r, hread, rfl, rfl⟩ := readToken_of_names hn
    have hmem : readToken t ∈ runs.map Except.ok := hruns ▸ List.mem_map.2 ⟨t, ht, rfl⟩
    obtain ⟨r', hr', he⟩ := List.mem_map.1 hmem
    cases he.trans hread
    exact ⟨r, hr', hf⟩

theorem exists_mem_of_parse {expression : String} {s : FrameSet} (h : parse expression = .ok s) :
    ∃ f, f ∈ s := by
  obtain ⟨hne, runs, hruns, rfl⟩ := parse_eq_ok_iff.1 h
  obtain ⟨t, ht⟩ := List.exists_mem_of_ne_nil _ hne
  have hmem : readToken t ∈ runs.map Except.ok := hruns ▸ List.mem_map.2 ⟨t, ht, rfl⟩
  obtain ⟨r, hr, _⟩ := List.mem_map.1 hmem
  exact ⟨r.first, mem_ofRuns.2 ⟨r, hr, Nat.le_refl _, r.first_le_last⟩⟩

@[simp] theorem mem_toList {f : Nat} {s : FrameSet} : f ∈ s.toList ↔ f ∈ s := by
  simp [toList, mem_iff]

theorem pairwise_lt_toList (s : FrameSet) : s.toList.Pairwise (· < ·) := by
  rw [toList, List.pairwise_flatMap]
  constructor
  · intro r _
    exact List.pairwise_lt_range'
  · refine s.separated.imp ?_
    intro r t hrt f hf g hg
    have hf := FrameRun.mem_iff.1 (FrameRun.mem_toList.1 hf)
    have hg := FrameRun.mem_iff.1 (FrameRun.mem_toList.1 hg)
    simp only [FrameRun.Before] at hrt
    omega

end FrameSet
end RenderFarm

import RenderFarm.Proofs.Frames.Selection

/-! Which frame expressions are accepted, and what is reported of the others. An expression is
accepted if it has a token and all its tokens name frames. Of an expression that is not, the leftmost
token that names no frames is reported, and in it the first number before the second and both before
their order. -/
namespace RenderFarm
namespace FrameSet

/-- What is wrong with `digits` as a frame number in `token`. -/
inductive WrongNumber (token : List Char) : List Char → FrameFault → Prop
  | malformed {digits : List Char} (shape : ¬Text.IsNumeral digits) :
      WrongNumber token digits (.malformed (String.ofList token))
  | outOfRange {digits : List Char} {n : Nat} (read : Text.readDecimal? digits = some n)
      (bound : maxFrame < n) :
      WrongNumber token digits (.outOfRange (String.ofList digits) (String.ofList token))

/-- What is wrong with a token. A range is cut at its first hyphen; its second number is looked at
if the first one is a frame, and their order if both are. -/
inductive WrongToken : List Char → FrameFault → Prop
  | frame {token : List Char} {fault : FrameFault} (single : '-' ∉ token)
      (wrong : WrongNumber token token fault) : WrongToken token fault
  | start {start stop : List Char} {fault : FrameFault} (cut : '-' ∉ start)
      (wrong : WrongNumber (start ++ '-' :: stop) start fault) :
      WrongToken (start ++ '-' :: stop) fault
  | stop {start stop : List Char} {a : Nat} {fault : FrameFault}
      (first : Text.readDecimal? start = some a) (bound : a ≤ maxFrame)
      (wrong : WrongNumber (start ++ '-' :: stop) stop fault) :
      WrongToken (start ++ '-' :: stop) fault
  | order {start stop : List Char} {a b : Nat} (first : Text.readDecimal? start = some a)
      (last : Text.readDecimal? stop = some b) (bound : a ≤ maxFrame) (reversed : b < a) :
      WrongToken (start ++ '-' :: stop) (.reversed (String.ofList (start ++ '-' :: stop)))

/-- The leftmost of the tokens that names no frames has the fault. -/
def LeftmostWrong (ts : List (List Char)) (fault : FrameFault) : Prop :=
  ∃ before token after, ts = before ++ token :: after ∧
    (∀ t ∈ before, ∃ a b, Names t a b) ∧ WrongToken token fault

theorem not_leftmostWrong_nil (fault : FrameFault) : ¬LeftmostWrong [] fault := by
  rintro ⟨before, token, after, h, -⟩
  simp at h

theorem leftmostWrong_cons {token : List Char} {ts : List (List Char)} {fault : FrameFault} :
    LeftmostWrong (token :: ts) fault ↔
      WrongToken token fault ∨ (∃ a b, Names token a b) ∧ LeftmostWrong ts fault := by
  constructor
  · rintro ⟨before, t, after, h, hbefore, hwrong⟩
    cases before with
    | nil =>
      cases h
      exact .inl hwrong
    | cons u before =>
      cases h
      obtain ⟨hu, hbefore⟩ := List.forall_mem_cons.1 hbefore
      exact .inr ⟨hu, before, t, after, rfl, hbefore, hwrong⟩
  · rintro (hwrong | ⟨htoken, before, t, after, rfl, hbefore, hwrong⟩)
    · exact ⟨[], token, ts, rfl, by simp, hwrong⟩
    · exact ⟨token :: before, t, after, rfl, List.forall_mem_cons.2 ⟨htoken, hbefore⟩, hwrong⟩

theorem readFrame_eq_error_iff {token digits : List Char} {fault : FrameFault} :
    readFrame token digits = .error fault ↔ WrongNumber token digits fault := by
  unfold readFrame
  constructor
  · intro h
    cases hd : Text.readDecimal? digits with
    | none =>
      simp only [hd, Except.error.injEq] at h
      subst h
      exact .malformed (Text.readDecimal?_eq_none_iff.1 hd)
    | some n =>
      simp only [hd] at h
      split at h
      · cases h
      · rename_i hn
        cases h
        exact .outOfRange hd (Nat.lt_of_not_le hn)
  · intro h
    cases h with
    | malformed shape => simp [Text.readDecimal?_eq_none_iff.2 shape]
    | outOfRange read bound => simp [read, Nat.not_le.2 bound]

theorem wrongToken_of_readToken {token : List Char} {fault : FrameFault}
    (h : readToken token = .error fault) : WrongToken token fault := by
  by_cases hm : '-' ∈ token
  · obtain ⟨start, stop, rfl, hs⟩ := List.eq_append_cons_of_mem hm
    rw [readToken_append hs] at h
    cases ha : readFrame (start ++ '-' :: stop) start with
    | error e =>
      simp only [ha, bind, Except.bind, Except.error.injEq] at h
      subst h
      exact .start hs (readFrame_eq_error_iff.1 ha)
    | ok a =>
      have hfirst := readFrame_eq_ok_iff.1 ha
      cases hb : readFrame (start ++ '-' :: stop) stop with
      | error e =>
        simp only [ha, hb, bind, Except.bind, Except.error.injEq] at h
        subst h
        exact .stop hfirst a.2 (readFrame_eq_error_iff.1 hb)
      | ok b =>
        simp only [ha, hb, bind, Except.bind] at h
        split at h
        · cases h
        · rename_i hab
          cases h
          exact .order hfirst (readFrame_eq_ok_iff.1 hb) a.2 (Nat.lt_of_not_le hab)
  · rw [readToken_of_not_mem hm] at h
    cases hf : readFrame token token with
    | error e =>
      simp only [hf, Except.map, Except.error.injEq] at h
      subst h
      exact .frame hm (readFrame_eq_error_iff.1 hf)
    | ok f => simp [hf, Except.map] at h

theorem readToken_of_wrongToken {token : List Char} {fault : FrameFault}
    (h : WrongToken token fault) : readToken token = .error fault := by
  cases h with
  | frame single wrong =>
    rw [readToken_of_not_mem single, readFrame_eq_error_iff.2 wrong]
    rfl
  | start cut wrong =>
    rw [readToken_append cut, readFrame_eq_error_iff.2 wrong]
    rfl
  | @stop start stop a fault first bound wrong =>
    have ha : readFrame (start ++ '-' :: stop) start = .ok ⟨a, bound⟩ :=
      readFrame_eq_ok_iff.2 first
    rw [readToken_append (hyphen_not_mem_of_readDecimal? first), ha,
      readFrame_eq_error_iff.2 wrong]
    rfl
  | @order start stop a b first last bound reversed =>
    have ha : readFrame (start ++ '-' :: stop) start = .ok ⟨a, bound⟩ :=
      readFrame_eq_ok_iff.2 first
    have hb : readFrame (start ++ '-' :: stop) stop = .ok ⟨b, by omega⟩ :=
      readFrame_eq_ok_iff.2 last
    rw [readToken_append (hyphen_not_mem_of_readDecimal? first), ha, hb]
    simp [bind, Except.bind, Nat.not_le.2 reversed]

theorem readToken_eq_error_iff {token : List Char} {fault : FrameFault} :
    readToken token = .error fault ↔ WrongToken token fault :=
  ⟨wrongToken_of_readToken, readToken_of_wrongToken⟩

theorem exists_readToken_eq_ok_iff {token : List Char} :
    (∃ r, readToken token = .ok r) ↔ ∃ a b, Names token a b := by
  constructor
  · rintro ⟨r, hr⟩
    exact ⟨r.first, r.last, names_of_readToken hr⟩
  · rintro ⟨a, b, h⟩
    obtain ⟨r, hr, -⟩ := readToken_of_names h
    exact ⟨r, hr⟩

/-- Reading tokens from the left fails at the leftmost one that names no frames. -/
theorem mapM_readToken_eq_error_iff {ts : List (List Char)} {fault : FrameFault} :
    ts.mapM readToken = .error fault ↔ LeftmostWrong ts fault := by
  induction ts with
  | nil => simp [not_leftmostWrong_nil, pure, Except.pure]
  | cons token ts ih =>
    rw [List.mapM_cons, leftmostWrong_cons, ← ih, ← readToken_eq_error_iff,
      ← exists_readToken_eq_ok_iff]
    cases ht : readToken token with
    | error e => simp [bind, Except.bind]
    | ok r => cases hts : ts.mapM readToken <;> simp [bind, Except.bind, pure, Except.pure]

theorem exists_mapM_readToken_eq_ok_iff {ts : List (List Char)} :
    (∃ runs, ts.mapM readToken = .ok runs) ↔ ∀ t ∈ ts, ∃ a b, Names t a b := by
  induction ts with
  | nil => simp [pure, Except.pure]
  | cons token ts ih =>
    rw [List.mapM_cons, List.forall_mem_cons, ← ih, ← exists_readToken_eq_ok_iff]
    cases ht : readToken token with
    | error e => simp [bind, Except.bind]
    | ok r => cases hts : ts.mapM readToken <;> simp [bind, Except.bind, pure, Except.pure]

theorem exists_parse_eq_ok_iff {expression : String} :
    (∃ s, parse expression = .ok s) ↔
      tokens expression ≠ [] ∧ ∀ t ∈ tokens expression, ∃ a b, Names t a b := by
  rw [← exists_mapM_readToken_eq_ok_iff]
  unfold parse
  cases tokens expression with
  | nil => simp
  | cons t ts =>
    simp only [ne_eq, reduceCtorEq, not_false_eq_true, true_and]
    cases (t :: ts).mapM readToken <;> simp

theorem parse_eq_error_iff {expression : String} {e : JobError} :
    parse expression = .error e ↔
      ∃ fault, e = .badFrames expression fault ∧
        (tokens expression = [] ∧ fault = .noFrames ∨ LeftmostWrong (tokens expression) fault) := by
  unfold parse
  cases tokens expression with
  | nil => simp [not_leftmostWrong_nil, eq_comm]
  | cons t ts =>
    simp only [← mapM_readToken_eq_error_iff]
    cases (t :: ts).mapM readToken <;> simp [eq_comm]

end FrameSet
end RenderFarm

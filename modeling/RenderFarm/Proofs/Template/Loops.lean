import RenderFarm.Proofs.Template.Reading

/-! Placeholders found in a loop. The search for the next placeholder goes from one opening brace to
the nearest closing one; if nothing stands between them it goes on behind the opening brace, and if
there is no closing one it ends. The names of a text are listed, and their values put in, by
searching on behind each placeholder that was found. The loops give what the scan gives. -/
namespace RenderFarm
namespace Template

/-- A text at the first place where a mark stands: what precedes the mark and what follows it. -/
def cutAt? (mark : Char) (s : List Char) : Option (List Char × List Char) :=
  match s.dropWhile (· != mark) with
  | [] => none
  | _ :: rest => some (s.takeWhile (· != mark), rest)

theorem cutAt?_append_cons {mark : Char} {a : List Char} (h : mark ∉ a) (b : List Char) :
    cutAt? mark (a ++ mark :: b) = some (a, b) := by
  rw [cutAt?, Text.takeWhile_bne_append_cons h, Text.dropWhile_bne_append_cons h]

theorem cutAt?_of_not_mem {mark : Char} {s : List Char} (h : mark ∉ s) : cutAt? mark s = none := by
  rw [cutAt?, Text.dropWhile_bne_of_not_mem h]

theorem cutAt?_eq_some_iff {mark : Char} {s a b : List Char} :
    cutAt? mark s = some (a, b) ↔ mark ∉ a ∧ s = a ++ mark :: b := by
  constructor
  · intro h
    by_cases hs : mark ∈ s
    · obtain ⟨a', b', rfl, ha⟩ := List.eq_append_cons_of_mem hs
      rw [cutAt?_append_cons ha] at h
      cases h
      exact ⟨ha, rfl⟩
    · rw [cutAt?_of_not_mem hs] at h
      cases h
  · rintro ⟨ha, rfl⟩
    exact cutAt?_append_cons ha b

theorem cutAt?_eq_none_iff {mark : Char} {s : List Char} : cutAt? mark s = none ↔ mark ∉ s := by
  refine ⟨fun h hs => ?_, cutAt?_of_not_mem⟩
  obtain ⟨a, b, rfl, ha⟩ := List.eq_append_cons_of_mem hs
  rw [cutAt?_append_cons ha] at h
  cases h

theorem cutAt?_length {mark : Char} {s a b : List Char} (h : cutAt? mark s = some (a, b)) :
    b.length < s.length := by
  obtain ⟨-, rfl⟩ := cutAt?_eq_some_iff.1 h
  simp only [List.length_append, List.length_cons]
  omega

def nextSlot? (s : List Char) : Option (List Char × List Char × List Char) :=
  match h : cutAt? '\x7b' s with
  | none => none
  | some (before, r) =>
    match cutAt? '\x7d' r with
    | none => none
    | some ([], _) =>
      have : r.length < s.length := cutAt?_length h
      (nextSlot? r).map fun (lead, found) => (before ++ '\x7b' :: lead, found)
    | some (name, rest) => some (before, name, rest)
termination_by s.length

theorem nextSlot?_of_not_mem {s : List Char} (h : '\x7b' ∉ s) : nextSlot? s = none := by
  rw [nextSlot?]
  split
  · rfl
  · rename_i hcut
    rw [cutAt?_of_not_mem h] at hcut
    cases hcut

theorem nextSlot?_of_cut {s before r : List Char} (h : cutAt? '\x7b' s = some (before, r)) :
    nextSlot? s =
      match cutAt? '\x7d' r with
      | none => none
      | some ([], _) => (nextSlot? r).map fun (lead, found) => (before ++ '\x7b' :: lead, found)
      | some (name, rest) => some (before, name, rest) := by
  rw [nextSlot?]
  split
  · rename_i hcut
    cases h.symm.trans hcut
  · rename_i hcut
    cases h.symm.trans hcut
    rfl

theorem atBraces_append_cons {P : List Char → Prop} {a b : List Char} (ha : '\x7b' ∉ a) :
    AtBraces P (a ++ '\x7b' :: b) ↔ P b ∧ AtBraces P b := by
  induction a with
  | nil => simp [atBraces_cons]
  | cons c a ih =>
    obtain ⟨hc, ha⟩ := not_or.1 (mt List.mem_cons.2 ha)
    rw [List.cons_append, atBraces_cons, ih ha]
    simp [Ne.symm hc]

/-- What the search finds is a placeholder, and no brace before it could start one. -/
theorem nextSlot?_eq_some {s lead name rest : List Char}
    (h : nextSlot? s = some (lead, name, rest)) :
    s = lead ++ (placeholderText name ++ rest) ∧ AtBraces ClosedAtOnce lead ∧
      name ≠ [] ∧ '\x7d' ∉ name := by
  induction s using nextSlot?.induct generalizing lead with
  | case1 s hopen =>
    rw [nextSlot?_of_not_mem (cutAt?_eq_none_iff.1 hopen)] at h
    cases h
  | case2 s before r hopen hclose =>
    rw [nextSlot?_of_cut hopen, hclose] at h
    cases h
  | case3 s before r hopen after hclose hlt ih =>
    obtain ⟨hbefore, rfl⟩ := cutAt?_eq_some_iff.1 hopen
    obtain ⟨-, rfl⟩ := cutAt?_eq_some_iff.1 hclose
    rw [nextSlot?_of_cut hopen, hclose] at h
    obtain ⟨⟨l, n, t⟩, hfound, hmap⟩ := Option.map_eq_some_iff.1 h
    cases hmap
    obtain ⟨htext, hl, hname⟩ := ih hfound
    have hstart : ClosedAtOnce l := by
      cases l with
      | nil => simp [placeholderText] at htext
      | cons c l =>
        obtain ⟨rfl, -⟩ := List.cons.inj htext
        rfl
    refine ⟨?_, (atBraces_append_cons hbefore).2 ⟨hstart, hl⟩, hname⟩
    rw [htext]
    simp
  | case4 s before r hopen n t hne hclose =>
    obtain ⟨c, n, rfl⟩ := List.exists_cons_of_ne_nil hne
    obtain ⟨hbefore, rfl⟩ := cutAt?_eq_some_iff.1 hopen
    obtain ⟨hn, rfl⟩ := cutAt?_eq_some_iff.1 hclose
    rw [nextSlot?_of_cut hopen, hclose] at h
    cases h
    exact ⟨by simp [placeholderText], atBraces_of_not_mem hbefore, hne, hn⟩

theorem atBraces_of_nextSlot?_eq_none {s : List Char} (h : nextSlot? s = none) :
    AtBraces ClosedAtOnceOrNever s := by
  induction s using nextSlot?.induct with
  | case1 s hopen => exact atBraces_of_not_mem (cutAt?_eq_none_iff.1 hopen)
  | case2 s before r hopen hclose =>
    obtain ⟨hbefore, rfl⟩ := cutAt?_eq_some_iff.1 hopen
    have hnever := cutAt?_eq_none_iff.1 hclose
    refine (atBraces_append_cons hbefore).2 ⟨.inr hnever, ?_⟩
    rintro a b rfl
    exact .inr fun hb => hnever (by simp [hb])
  | case3 s before r hopen after hclose hlt ih =>
    obtain ⟨hbefore, rfl⟩ := cutAt?_eq_some_iff.1 hopen
    obtain ⟨-, rfl⟩ := cutAt?_eq_some_iff.1 hclose
    rw [nextSlot?_of_cut hopen, hclose] at h
    exact (atBraces_append_cons hbefore).2 ⟨.inl rfl, ih (Option.map_eq_none_iff.1 h)⟩
  | case4 s before r hopen n t hne hclose =>
    obtain ⟨c, n, rfl⟩ := List.exists_cons_of_ne_nil hne
    rw [nextSlot?_of_cut hopen, hclose] at h
    cases h

theorem nextSlot?_length {s lead name rest : List Char}
    (h : nextSlot? s = some (lead, name, rest)) : rest.length < s.length := by
  obtain ⟨rfl, -⟩ := nextSlot?_eq_some h
  simp only [List.length_append, placeholderText, List.length_cons]
  omega

/-- The names found by searching on behind each placeholder. -/
def namesInTurn (s : List Char) : List String :=
  match h : nextSlot? s with
  | none => []
  | some (_, name, rest) =>
    have : rest.length < s.length := nextSlot?_length h
    String.ofList name :: namesInTurn rest
termination_by s.length

/-- The text with values put in by searching on behind each placeholder. -/
def fillInTurn (ctx : Context) (s : List Char) : List Char :=
  match h : nextSlot? s with
  | none => s
  | some (lead, name, rest) =>
    have : rest.length < s.length := nextSlot?_length h
    lead ++ filling ctx name ++ fillInTurn ctx rest
termination_by s.length

theorem namesInTurn_of_none {s : List Char} (h : nextSlot? s = none) : namesInTurn s = [] := by
  rw [namesInTurn]
  split
  · rfl
  · rename_i hs
    cases h.symm.trans hs

theorem namesInTurn_of_some {s lead name rest : List Char}
    (h : nextSlot? s = some (lead, name, rest)) :
    namesInTurn s = String.ofList name :: namesInTurn rest := by
  rw [namesInTurn]
  split
  · rename_i hs
    cases h.symm.trans hs
  · rename_i hs
    cases h.symm.trans hs
    rfl

theorem fillInTurn_of_none {ctx : Context} {s : List Char} (h : nextSlot? s = none) :
    fillInTurn ctx s = s := by
  rw [fillInTurn]
  split
  · rfl
  · rename_i hs
    cases h.symm.trans hs

theorem fillInTurn_of_some {ctx : Context} {s lead name rest : List Char}
    (h : nextSlot? s = some (lead, name, rest)) :
    fillInTurn ctx s = lead ++ filling ctx name ++ fillInTurn ctx rest := by
  rw [fillInTurn]
  split
  · rename_i hs
    cases h.symm.trans hs
  · rename_i hs
    cases h.symm.trans hs
    rfl

theorem ofList_of_nextSlot?_eq_none {s : List Char} (h : nextSlot? s = none) :
    ofList s = ⟨s, []⟩ :=
  ofList_of_atBraces (atBraces_of_nextSlot?_eq_none h)

theorem ofList_of_nextSlot?_eq_some {s lead name rest : List Char}
    (h : nextSlot? s = some (lead, name, rest)) :
    ofList s = ⟨lead, ⟨name, (ofList rest).lead⟩ :: (ofList rest).slots⟩ := by
  obtain ⟨rfl, hlead, hne, hn⟩ := nextSlot?_eq_some h
  exact ofList_append_placeholder hlead hne hn rest

theorem placeholders_eq_namesInTurn (s : String) : placeholders s = namesInTurn s.toList := by
  rw [placeholders]
  induction s.toList using namesInTurn.induct with
  | case1 l hnone =>
    rw [namesInTurn_of_none hnone, ofList_of_nextSlot?_eq_none hnone]
    rfl
  | case2 l lead name rest hsome hlt ih =>
    rw [namesInTurn_of_some hsome, ofList_of_nextSlot?_eq_some hsome, ← ih]
    rfl

theorem substitute_eq_fillInTurn (ctx : Context) (s : String) :
    ctx.substitute s = String.ofList (fillInTurn ctx s.toList) := by
  rw [Context.substitute]
  congr 1
  induction s.toList using namesInTurn.induct with
  | case1 l hnone =>
    rw [fillInTurn_of_none hnone, ofList_of_nextSlot?_eq_none hnone]
    exact List.append_nil l
  | case2 l lead name rest hsome hlt ih =>
    rw [fillInTurn_of_some hsome, ofList_of_nextSlot?_eq_some hsome, ← ih]
    simp [fill]

end Template
end RenderFarm

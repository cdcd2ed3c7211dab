import RenderFarm.Proofs.Text
import RenderFarm.Template

/-! Scanning a text for placeholders. The scanner reads from left to right, so a text whose opening
braces are all closed is filled on its own, whatever follows it, and a brace that is left open takes
the text up to the next closing brace into a name. -/
namespace RenderFarm
namespace Template

/-- Every opening brace has a closing one somewhere after it. -/
def Closes : List Char → Prop
  | [] => True
  | c :: s => (c = '\x7b' → '\x7d' ∈ s) ∧ Closes s

instance decidableCloses : ∀ s, Decidable (Closes s)
  | [] => isTrue trivial
  | c :: s =>
    have : Decidable (Closes s) := decidableCloses s
    inferInstanceAs (Decidable ((c = '\x7b' → '\x7d' ∈ s) ∧ Closes s))

theorem closes_of_append {s t : List Char} (h : Closes (s ++ t)) : Closes t := by
  induction s with
  | nil => exact h
  | cons c s ih => exact ih h.2

theorem closes_append_singleton {c : Char} (ho : c ≠ '\x7b') (hc : c ≠ '\x7d') {s : List Char} :
    Closes (s ++ [c]) ↔ Closes s := by
  induction s with
  | nil => simp [Closes, ho]
  | cons d s ih => simp [Closes, ih, Ne.symm hc]

theorem exists_open_of_not_closes {s : List Char} (h : ¬Closes s) :
    ∃ a b, s = a ++ '\x7b' :: b ∧ Closes a ∧ '\x7d' ∉ b := by
  induction s with
  | nil => exact absurd trivial h
  | cons c s ih =>
    by_cases hopen : c = '\x7b' ∧ '\x7d' ∉ s
    · obtain ⟨rfl, hs⟩ := hopen
      exact ⟨[], s, rfl, trivial, hs⟩
    · have hc : c = '\x7b' → '\x7d' ∈ s := by
        intro hc
        by_contra hs
        exact hopen ⟨hc, hs⟩
      obtain ⟨a, b, rfl, ha, hb⟩ := ih fun hs => h ⟨hc, hs⟩
      refine ⟨c :: a, b, rfl, ⟨?_, ha⟩, hb⟩
      intro hbrace
      have hmem := hc hbrace
      simpa [hb] using hmem

theorem nameAt?_append_cons {name : List Char} (hne : name ≠ []) (hn : '\x7d' ∉ name)
    (rest : List Char) : nameAt? (name ++ '\x7d' :: rest) = some (name, rest) := by
  obtain ⟨c, n, rfl⟩ := List.exists_cons_of_ne_nil hne
  unfold nameAt?
  rw [Text.takeWhile_bne_append_cons hn, Text.dropWhile_bne_append_cons hn]

theorem nameAt?_eq_some_iff {s name rest : List Char} :
    nameAt? s = some (name, rest) ↔ name ≠ [] ∧ '\x7d' ∉ name ∧ s = name ++ '\x7d' :: rest := by
  constructor
  · intro h
    by_cases hs : '\x7d' ∈ s
    · obtain ⟨n, r, rfl, hn⟩ := List.eq_append_cons_of_mem hs
      by_cases hne : n = []
      · subst hne
        simp [nameAt?] at h
      · rw [nameAt?_append_cons hne hn] at h
        cases h
        exact ⟨hne, hn, rfl⟩
    · simp [nameAt?, Text.dropWhile_bne_of_not_mem hs] at h
  · rintro ⟨hne, hn, rfl⟩
    exact nameAt?_append_cons hne hn rest

theorem nameAt?_cons_close (rest : List Char) : nameAt? ('\x7d' :: rest) = none := by
  simp [nameAt?]

theorem slotAt?_of_ne {c : Char} (h : c ≠ '\x7b') (s : List Char) : slotAt? c s = none := by
  rw [slotAt?, if_neg h]

theorem eq_of_slotAt?_eq_some {c : Char} {s name rest : List Char}
    (h : slotAt? c s = some (name, rest)) : c = '\x7b' ∧ s = name ++ '\x7d' :: rest := by
  unfold slotAt? at h
  split at h
  · rename_i hc
    exact ⟨hc, (nameAt?_eq_some_iff.1 h).2.2⟩
  · cases h

/-- What follows a closing brace does not decide about the placeholder before it. -/
theorem slotAt?_append {c : Char} {s : List Char} (h : c = '\x7b' → '\x7d' ∈ s) (t : List Char) :
    slotAt? c (s ++ t) = (slotAt? c s).map fun p => (p.1, p.2 ++ t) := by
  by_cases hc : c = '\x7b'
  · obtain ⟨name, rest, rfl, hn⟩ := List.eq_append_cons_of_mem (h hc)
    simp only [slotAt?, if_pos hc, List.append_assoc, List.cons_append]
    by_cases hne : name = []
    · subst hne
      simp only [List.nil_append, nameAt?_cons_close, Option.map_none]
    · simp only [nameAt?_append_cons hne hn, Option.map_some]
  · simp only [slotAt?_of_ne hc, Option.map_none]

theorem ofList_cons_of_slot {c : Char} {s name rest : List Char}
    (h : slotAt? c s = some (name, rest)) :
    ofList (c :: s) = ⟨[], ⟨name, (ofList rest).lead⟩ :: (ofList rest).slots⟩ := by
  rw [ofList]
  split
  · rename_i heq
    cases h.symm.trans heq
    rfl
  · rename_i heq
    cases h.symm.trans heq

theorem ofList_cons_of_none {c : Char} {s : List Char} (h : slotAt? c s = none) :
    ofList (c :: s) = ⟨c :: (ofList s).lead, (ofList s).slots⟩ := by
  rw [ofList]
  split
  · rename_i heq
    cases h.symm.trans heq
  · rfl

theorem ofList_placeholder {name : List Char} (hne : name ≠ []) (hn : '\x7d' ∉ name)
    (rest : List Char) :
    ofList (placeholderText name ++ rest) =
      ⟨[], ⟨name, (ofList rest).lead⟩ :: (ofList rest).slots⟩ := by
  have hslot : slotAt? '\x7b' (name ++ '\x7d' :: rest) = some (name, rest) := by
    rw [slotAt?, if_pos rfl]
    exact nameAt?_append_cons hne hn rest
  have hcons : placeholderText name ++ rest = '\x7b' :: (name ++ '\x7d' :: rest) := by
    simp [placeholderText]
  rw [hcons, ofList_cons_of_slot hslot]

variable {ctx : Context}

theorem filling_of_value {name : List Char} {v : String}
    (h : ctx.value? (String.ofList name) = some v) : filling ctx name = v.toList := by
  rw [filling, h]

theorem filling_of_no_value {name : List Char} (h : ctx.value? (String.ofList name) = none) :
    filling ctx name = placeholderText name := by
  rw [filling, h]

@[simp] theorem fill_ofList_nil : (ofList []).fill ctx = [] := by
  rw [ofList]
  rfl

theorem fill_ofList_of_slot {c : Char} {s name rest : List Char}
    (h : slotAt? c s = some (name, rest)) :
    (ofList (c :: s)).fill ctx = filling ctx name ++ (ofList rest).fill ctx := by
  rw [ofList_cons_of_slot h]
  simp [fill]

theorem fill_ofList_of_none {c : Char} {s : List Char} (h : slotAt? c s = none) :
    (ofList (c :: s)).fill ctx = c :: (ofList s).fill ctx := by
  rw [ofList_cons_of_none h]
  rfl

theorem fill_ofList_of_not_mem {s : List Char} (h : '\x7b' ∉ s) : (ofList s).fill ctx = s := by
  induction s with
  | nil => exact fill_ofList_nil
  | cons c s ih =>
    have hc : c ≠ '\x7b' := by
      rintro rfl
      exact h (List.mem_cons_self ..)
    rw [fill_ofList_of_none (slotAt?_of_ne hc s), ih fun hs => h (List.mem_cons_of_mem c hs)]

theorem fill_ofList_placeholder {name : List Char} (hne : name ≠ []) (hn : '\x7d' ∉ name)
    (rest : List Char) :
    (ofList (placeholderText name ++ rest)).fill ctx =
      filling ctx name ++ (ofList rest).fill ctx := by
  rw [ofList_placeholder hne hn]
  simp [fill]

/-- A text whose braces are closed is filled on its own, whatever follows it. -/
theorem fill_ofList_append {s : List Char} (h : Closes s) (t : List Char) :
    (ofList (s ++ t)).fill ctx = (ofList s).fill ctx ++ (ofList t).fill ctx := by
  induction s using ofList.induct with
  | case1 => simp
  | case2 c r name rest hslot hlt ih =>
    obtain ⟨_, hr⟩ := eq_of_slotAt?_eq_some hslot
    have hrest : Closes rest := by
      have hclose : Closes ((name ++ ['\x7d']) ++ rest) := by simpa [hr] using h.2
      exact closes_of_append hclose
    have happ : slotAt? c (r ++ t) = some (name, rest ++ t) := by
      rw [slotAt?_append h.1, hslot]
      rfl
    rw [List.cons_append, fill_ofList_of_slot happ, fill_ofList_of_slot hslot, ih hrest,
      List.append_assoc]
  | case3 c r hnone ih =>
    have happ : slotAt? c (r ++ t) = none := by
      rw [slotAt?_append h.1, hnone]
      rfl
    rw [List.cons_append, fill_ofList_of_none happ, fill_ofList_of_none hnone, ih h.2,
      List.cons_append]

end Template
end RenderFarm

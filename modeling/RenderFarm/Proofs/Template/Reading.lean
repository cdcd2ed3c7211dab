import RenderFarm.Proofs.Template.Scanning

/-! Texts read as templates. In a reading of a text every name is one that a placeholder can have,
and no opening brace in a literal could start a placeholder: it is closed at once or, after the last
placeholder, not at all. Each text has one reading, and scanning finds it. -/
namespace RenderFarm
namespace Template

/-- What follows any of the opening braces of a text has the property. -/
def AtBraces (P : List Char → Prop) (s : List Char) : Prop := ∀ a b, s = a ++ '\x7b' :: b → P b

@[simp] theorem atBraces_nil {P : List Char → Prop} : AtBraces P [] := by
  intro a b h
  simp at h

theorem atBraces_cons {P : List Char → Prop} {c : Char} {s : List Char} :
    AtBraces P (c :: s) ↔ (c = '\x7b' → P s) ∧ AtBraces P s := by
  constructor
  · intro h
    refine ⟨?_, fun a b hs => h (c :: a) b (by rw [hs, List.cons_append])⟩
    rintro rfl
    exact h [] s rfl
  · rintro ⟨hc, hs⟩ a b hab
    cases a with
    | nil =>
      obtain ⟨rfl, rfl⟩ := List.cons.inj hab
      exact hc rfl
    | cons d a =>
      obtain ⟨rfl, rfl⟩ := List.cons.inj hab
      exact hs a b rfl

theorem atBraces_of_not_mem {P : List Char → Prop} {s : List Char} (h : '\x7b' ∉ s) :
    AtBraces P s := by
  rintro a b rfl
  simp at h

def ClosedAtOnce (s : List Char) : Prop := s.head? = some '\x7d'

def ClosedAtOnceOrNever (s : List Char) : Prop := ClosedAtOnce s ∨ '\x7d' ∉ s

def literals (t : Template) : List (List Char) := t.lead :: t.slots.map Slot.trail

/-- The template is a reading of its text. -/
structure IsReading (t : Template) : Prop where
  names : ∀ s ∈ t.slots, s.name ≠ [] ∧ '\x7d' ∉ s.name
  inner : ∀ l ∈ t.literals.dropLast, AtBraces ClosedAtOnce l
  last : ∀ l ∈ t.literals.getLast?, AtBraces ClosedAtOnceOrNever l

theorem isReading_nil {lead : List Char} :
    IsReading ⟨lead, []⟩ ↔ AtBraces ClosedAtOnceOrNever lead := by
  constructor
  · intro h
    exact h.last lead rfl
  · intro h
    exact ⟨by simp, by simp [literals], by simpa [literals] using h⟩

theorem isReading_cons {lead : List Char} {s : Slot} {slots : List Slot} :
    IsReading ⟨lead, s :: slots⟩ ↔
      AtBraces ClosedAtOnce lead ∧ (s.name ≠ [] ∧ '\x7d' ∉ s.name) ∧ IsReading ⟨s.trail, slots⟩ := by
  have hdrop : (⟨lead, s :: slots⟩ : Template).literals.dropLast =
      lead :: (⟨s.trail, slots⟩ : Template).literals.dropLast := rfl
  have hlast : (⟨lead, s :: slots⟩ : Template).literals.getLast? =
      (⟨s.trail, slots⟩ : Template).literals.getLast? := rfl
  constructor
  · intro h
    have hinner := h.inner
    have hend := h.last
    rw [hdrop, List.forall_mem_cons] at hinner
    rw [hlast] at hend
    obtain ⟨hs, hslots⟩ := List.forall_mem_cons.1 h.names
    exact ⟨hinner.1, hs, hslots, hinner.2, hend⟩
  · rintro ⟨hlead, hs, h⟩
    refine ⟨List.forall_mem_cons.2 ⟨hs, h.names⟩, ?_, ?_⟩
    · rw [hdrop]
      exact List.forall_mem_cons.2 ⟨hlead, h.inner⟩
    · rw [hlast]
      exact h.last

theorem nameAt?_eq_none_iff {s : List Char} : nameAt? s = none ↔ ClosedAtOnceOrNever s := by
  constructor
  · intro h
    by_cases hs : '\x7d' ∈ s
    · obtain ⟨name, rest, rfl, hn⟩ := List.eq_append_cons_of_mem hs
      by_cases hne : name = []
      · subst hne
        exact .inl rfl
      · rw [nameAt?_append_cons hne hn] at h
        cases h
    · exact .inr hs
  · rintro (h | h)
    · obtain ⟨rest, rfl⟩ := List.head?_eq_some_iff.1 h
      exact nameAt?_cons_close rest
    · simp [nameAt?, Text.dropWhile_bne_of_not_mem h]

theorem slotAt?_eq_none_iff {c : Char} {s : List Char} :
    slotAt? c s = none ↔ (c = '\x7b' → ClosedAtOnceOrNever s) := by
  by_cases hc : c = '\x7b'
  · simp [slotAt?, hc, nameAt?_eq_none_iff]
  · simp [slotAt?_of_ne hc, hc]

theorem ofList_of_atBraces {s : List Char} (h : AtBraces ClosedAtOnceOrNever s) :
    ofList s = ⟨s, []⟩ := by
  induction s with
  | nil => rw [ofList]
  | cons c s ih =>
    obtain ⟨hc, hs⟩ := atBraces_cons.1 h
    rw [ofList_cons_of_none (slotAt?_eq_none_iff.2 hc), ih hs]

/-- The scan goes through a literal whose braces are closed at once, and stops at the placeholder
that follows it. -/
theorem ofList_append_placeholder {lead name : List Char} (hl : AtBraces ClosedAtOnce lead)
    (hne : name ≠ []) (hn : '\x7d' ∉ name) (rest : List Char) :
    ofList (lead ++ (placeholderText name ++ rest)) =
      ⟨lead, ⟨name, (ofList rest).lead⟩ :: (ofList rest).slots⟩ := by
  induction lead with
  | nil => rw [List.nil_append, ofList_placeholder hne hn]
  | cons c lead ih =>
    obtain ⟨hc, hl⟩ := atBraces_cons.1 hl
    have hnone : slotAt? c (lead ++ (placeholderText name ++ rest)) = none := by
      refine slotAt?_eq_none_iff.2 fun hbrace => .inl ?_
      obtain ⟨l, rfl⟩ := List.head?_eq_some_iff.1 (hc hbrace)
      rfl
    rw [List.cons_append, ofList_cons_of_none hnone, ih hl]

theorem IsReading.ofList_toList {t : Template} (h : t.IsReading) : ofList t.toList = t := by
  obtain ⟨lead, slots⟩ := t
  induction slots generalizing lead with
  | nil =>
    have htext : (⟨lead, []⟩ : Template).toList = lead := List.append_nil lead
    rw [htext, ofList_of_atBraces (isReading_nil.1 h)]
  | cons s slots ih =>
    obtain ⟨hlead, ⟨hne, hn⟩, htail⟩ := isReading_cons.1 h
    have htext : (⟨lead, s :: slots⟩ : Template).toList =
        lead ++ (placeholderText s.name ++ (⟨s.trail, slots⟩ : Template).toList) := by
      simp [toList]
    rw [htext, ofList_append_placeholder hlead hne hn, ih s.trail htail]

theorem toList_ofList (s : List Char) : (ofList s).toList = s := by
  induction s using ofList.induct with
  | case1 => rw [ofList]; rfl
  | case2 c r name rest hslot _ ih =>
    obtain ⟨rfl, rfl⟩ := eq_of_slotAt?_eq_some hslot
    rw [ofList_cons_of_slot hslot]
    simpa [toList, placeholderText] using ih
  | case3 c r hnone ih =>
    rw [ofList_cons_of_none hnone]
    simpa [toList] using ih

theorem isReading_ofList (s : List Char) : (ofList s).IsReading := by
  induction s using ofList.induct with
  | case1 =>
    rw [ofList]
    exact isReading_nil.2 atBraces_nil
  | case2 c r name rest hslot _ ih =>
    rw [ofList_cons_of_slot hslot]
    have hname : nameAt? r = some (name, rest) := by
      rw [← hslot, slotAt?, if_pos (eq_of_slotAt?_eq_some hslot).1]
    obtain ⟨hne, hn, -⟩ := nameAt?_eq_some_iff.1 hname
    exact isReading_cons.2 ⟨atBraces_nil, ⟨hne, hn⟩, ih⟩
  | case3 c r hnone ih =>
    rw [ofList_cons_of_none hnone]
    have hbrace := slotAt?_eq_none_iff.1 hnone
    have htext := toList_ofList r
    cases hr : ofList r with
    | mk lead slots =>
      rw [hr] at ih htext
      cases slots with
      | nil =>
        obtain rfl : lead = r := by simpa [toList] using htext
        exact isReading_nil.2 (atBraces_cons.2 ⟨hbrace, isReading_nil.1 ih⟩)
      | cons s slots =>
        obtain ⟨hlead, hs, htail⟩ := isReading_cons.1 ih
        -- The placeholder that follows holds a closing brace, so the one before it is closed, and
        -- its name can only be empty.
        refine isReading_cons.2 ⟨atBraces_cons.2 ⟨fun hc => ?_, hlead⟩, hs, htail⟩
        subst htext
        rcases hbrace hc with hclosed | hnever
        · cases lead with
          | nil => simp [ClosedAtOnce, toList, placeholderText] at hclosed
          | cons d lead => simpa [ClosedAtOnce, toList] using hclosed
        · simp [toList, placeholderText] at hnever

theorem IsReading.substitute_eq {t : Template} {s : String} (h : t.IsReading)
    (htext : t.toList = s.toList) (ctx : Context) :
    ctx.substitute s = String.ofList (t.fill ctx) := by
  rw [Context.substitute, ← htext, h.ofList_toList]

/-- Every text is written in one way as literals and placeholders such that no brace of a literal
could start a placeholder. Its placeholders are those of that reading, and substitution puts values
for those that have one and keeps everything else as it is written. -/
theorem existsUnique_reading (s : String) :
    (∃! t : Template, t.toList = s.toList ∧ t.IsReading) ∧
      ∀ t : Template, t.toList = s.toList → t.IsReading →
        placeholders s = t.slots.map (fun p => String.ofList p.name) ∧
        ∀ ctx : Context, ctx.substitute s =
          String.ofList (t.lead ++ t.slots.flatMap fun p =>
            (ctx.value? (String.ofList p.name)).elim (placeholderText p.name) String.toList ++
              p.trail) := by
  constructor
  · refine ⟨ofList s.toList, ⟨toList_ofList _, isReading_ofList _⟩, ?_⟩
    rintro t ⟨htext, hreading⟩
    rw [← htext, hreading.ofList_toList]
  · intro t htext hreading
    refine ⟨by rw [placeholders, ← htext, hreading.ofList_toList, names], fun ctx => ?_⟩
    have hfilling : ∀ name, filling ctx name =
        (ctx.value? (String.ofList name)).elim (placeholderText name) String.toList := by
      intro name
      rw [filling]
      cases ctx.value? (String.ofList name) <;> rfl
    simp only [hreading.substitute_eq htext, fill, hfilling]

end Template
end RenderFarm

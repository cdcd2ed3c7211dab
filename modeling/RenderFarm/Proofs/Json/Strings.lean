import RenderFarm.Json.Reader
import RenderFarm.Json.Writer

/-! Strings in JSON texts. Whatever its characters are, a string is read as it was written, and no
control character gets into the text. -/
namespace RenderFarm
namespace Json

/-- The text has no control characters. -/
def IsVisible (s : List Char) : Prop := ∀ c ∈ s, 0x20 ≤ c.toNat

instance : DecidablePred IsVisible :=
  fun s => List.decidableBAll (fun c : Char => 0x20 ≤ c.toNat) s

theorem isVisible_nil : IsVisible [] := by decide

theorem IsVisible.append {s t : List Char} (hs : IsVisible s) (ht : IsVisible t) :
    IsVisible (s ++ t) :=
  List.forall_mem_append.2 ⟨hs, ht⟩

theorem IsVisible.cons {c : Char} {s : List Char} (hc : 0x20 ≤ c.toNat) (hs : IsVisible s) :
    IsVisible (c :: s) :=
  List.forall_mem_cons.2 ⟨hc, hs⟩

theorem hexNumber?_hexPair : ∀ n < 0x20, Text.hexNumber? (['0', '0'] ++ hexPair n) = some n := by
  decide

theorem codePoint?_hexPair {c : Char} (h : c.toNat < 0x20) (r : List Char) :
    codePoint? ('0' :: '0' :: (hexPair c.toNat ++ r)) = some (c, r) := by
  have hunit : codeUnit? ('0' :: '0' :: (hexPair c.toNat ++ r)) = some (c.toNat, r) := by
    rw [hexPair, List.cons_append, List.cons_append, List.nil_append, codeUnit?]
    exact congrArg (Option.map (·, r)) (hexNumber?_hexPair c.toNat h)
  rw [codePoint?, hunit, Option.bind_eq_bind, Option.bind_some]
  dsimp only
  rw [if_neg (by omega), if_neg (by omega), Char.ofNat_toNat]

theorem stringBody?_quote (r : List Char) : stringBody? ('"' :: r) = some ([], r) := by
  rw [stringBody?, if_pos rfl]

theorem stringBody?_backslash {r t : List Char} {c : Char} (h : escaped? r = some (c, t)) :
    stringBody? ('\\' :: r) = (stringBody? t).map fun p => (c :: p.1, p.2) := by
  rw [stringBody?, if_neg (by decide), if_pos rfl]
  split
  · rename_i hnone
    rw [h] at hnone
    cases hnone
  · rename_i hsome
    rw [h] at hsome
    cases hsome
    rfl

theorem stringBody?_plain {c : Char} (hquote : c ≠ '"') (hbackslash : c ≠ '\\')
    (hcontrol : ¬c.toNat < 0x20) (r : List Char) :
    stringBody? (c :: r) = (stringBody? r).map fun p => (c :: p.1, p.2) := by
  rw [stringBody?, if_neg hquote, if_neg hbackslash, if_neg hcontrol]

theorem isVisible_hexPair : ∀ n < 0x20, IsVisible (hexPair n) := by decide

/-- The text after a backslash stands for the character, and it has no control character. -/
structure IsEscapeOf (c : Char) (t : List Char) : Prop where
  read : ∀ r, escaped? (t ++ r) = some (c, r)
  visible : IsVisible t

/-- A character is written as itself, if it is no control character and ends nothing, or after a
backslash. -/
theorem escape_cases (c : Char) :
    (escape c = [c] ∧ c ≠ '"' ∧ c ≠ '\\' ∧ ¬c.toNat < 0x20) ∨
      ∃ t, escape c = '\\' :: t ∧ IsEscapeOf c t := by
  unfold escape
  iterate 7
    split
    · rename_i h
      subst h
      exact .inr ⟨_, rfl, fun _ => rfl, by decide⟩
  split
  · rename_i h
    have hzeros : IsVisible ['u', '0', '0'] := by decide
    exact .inr ⟨_, rfl, codePoint?_hexPair h, hzeros.append (isVisible_hexPair c.toNat h)⟩
  · rename_i hquote hbackslash _ _ _ _ _ hcontrol
    exact .inl ⟨rfl, hquote, hbackslash, hcontrol⟩

theorem stringBody?_escape (c : Char) (r : List Char) :
    stringBody? (escape c ++ r) = (stringBody? r).map fun p => (c :: p.1, p.2) := by
  obtain ⟨hc, hquote, hbackslash, hcontrol⟩ | ⟨t, ht, hescape⟩ := escape_cases c
  · rw [hc]
    exact stringBody?_plain hquote hbackslash hcontrol r
  · rw [ht]
    exact stringBody?_backslash (hescape.read r)

theorem stringBody?_flatMap_escape (cs r : List Char) :
    stringBody? (cs.flatMap escape ++ '"' :: r) = some (cs, r) := by
  induction cs with
  | nil => exact stringBody?_quote r
  | cons c cs ih =>
    rw [List.flatMap_cons, List.append_assoc, stringBody?_escape, ih, Option.map_some]

theorem string?_string (s : String) :
    ∃ t, string s = '"' :: t ∧ ∀ r, string? (t ++ r) = some (s, r) := by
  refine ⟨s.toList.flatMap escape ++ ['"'], rfl, fun r => ?_⟩
  rw [string?, List.append_assoc, List.singleton_append, stringBody?_flatMap_escape,
    Option.map_some]
  dsimp only
  rw [String.ofList_toList]

theorem isVisible_escape (c : Char) : IsVisible (escape c) := by
  obtain ⟨hc, -, -, hcontrol⟩ | ⟨t, ht, hescape⟩ := escape_cases c
  · rw [hc]
    exact .cons (Nat.not_lt.1 hcontrol) (by decide)
  · rw [ht]
    exact hescape.visible.cons (by decide)

theorem isVisible_string (s : String) : IsVisible (string s) := by
  have hbody : IsVisible (s.toList.flatMap escape) := by
    intro d hd
    obtain ⟨c, -, hd⟩ := List.mem_flatMap.1 hd
    exact isVisible_escape c d hd
  exact (hbody.append (by decide)).cons (by decide)

end Json
end RenderFarm

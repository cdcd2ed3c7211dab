import RenderFarm.Proofs.Json.Texts

/-! The two layouts of JSON documents. They put the same tokens in the same order and differ in the
gaps between them, so that both are read as the datum that was written. The compact layout has no
gaps, and no control character comes from a token either. -/
namespace RenderFarm

/-- The datum can be written without loss: its integers have 64 bits, its numbers are finite, and
each of its tables names its entries differently. -/
inductive Datum.IsWritable : Datum → Prop where
  | null : IsWritable .null
  | bool (b : Bool) : IsWritable (.bool b)
  | int {n : Int} (low : Int64.minValue.toInt ≤ n) (high : n < UInt64.size) : IsWritable (.int n)
  | float {x : Binary64} (finite : x.isFinite = true) : IsWritable (.float x)
  | text (s : String) : IsWritable (.text s)
  | list {items : List Datum} (each : ∀ d ∈ items, IsWritable d) : IsWritable (.list items)
  | table {entries : List (String × Datum)} (keys : (entries.map Prod.fst).Nodup)
      (each : ∀ e ∈ entries, IsWritable e.2) : IsWritable (.table entries)

namespace Json

theorem eq_commaJoined {α : Type} {write : List α → List Char} {text : α → List Char}
    {gap : List Char} (nil : write [] = []) (single : ∀ a, write [a] = gap ++ text a)
    (cons : ∀ a b as, write (a :: b :: as) = gap ++ (text a ++ ',' :: write (b :: as)))
    (as : List α) : write as = commaJoined gap (as.map text) := by
  induction as with
  | nil => exact nil
  | cons a as ih =>
    cases as with
    | nil => exact single a
    | cons b as =>
      rw [cons, ih]
      rfl

theorem compactItems_eq (items : List Datum) :
    compactItems items = commaJoined [] (items.map compact) :=
  eq_commaJoined (by simp [compactItems]) (by simp [compactItems]) (by simp [compactItems]) items

theorem compactEntries_eq (entries : List (String × Datum)) :
    compactEntries entries =
      commaJoined [] (entries.map fun e => entryText [] e.1 (compact e.2)) :=
  eq_commaJoined (by simp [compactEntries]) (by simp [compactEntries, entryText])
    (by simp [compactEntries, entryText]) entries

theorem prettyItems_eq (level : Nat) (items : List Datum) :
    prettyItems level items = commaJoined (lineBreak level) (items.map (pretty level)) :=
  eq_commaJoined (by simp [prettyItems]) (by simp [prettyItems]) (by simp [prettyItems]) items

theorem prettyEntries_eq (level : Nat) (entries : List (String × Datum)) :
    prettyEntries level entries =
      commaJoined (lineBreak level)
        (entries.map fun e => entryText [' '] e.1 (pretty level e.2)) :=
  eq_commaJoined (by simp [prettyEntries]) (by simp [prettyEntries, entryText])
    (by simp [prettyEntries, entryText]) entries

theorem isGap_lineBreak (level : Nat) : IsGap (lineBreak level) := by
  intro c hc
  obtain rfl | ⟨-, rfl⟩ := by simpa [lineBreak] using hc
  · decide
  · decide

theorem isGap_nil : IsGap [] := by simp [IsGap]

theorem isGap_space : IsGap [' '] := by simp [IsGap, isSpace]

variable {d : Datum}

theorem isTextOf_bool (b : Bool) : IsTextOf (.bool b) (scalar (.bool b)) :=
  match b with
  | true => .yes
  | false => .no

theorem isTextOf_float {x : Binary64} (hx : x.isFinite = true) :
    IsTextOf (.float x) (scalar (.float x)) := by
  obtain ⟨t, ht⟩ := exists_numberText hx
  rw [scalar, ht, Option.getD_some]
  exact .float ht

theorem isTextOf_compact (h : d.IsWritable) : IsTextOf d (compact d) := by
  induction h with
  | null => exact .null
  | bool b => exact isTextOf_bool b
  | int low high => exact .int low high
  | float finite => exact isTextOf_float finite
  | text s => exact .text s
  | @list items each ih =>
    rw [compact, compactItems_eq]
    by_cases hne : items = []
    · subst hne
      exact .emptyList
    · exact .list isGap_nil isGap_nil hne ih
  | @table entries keys each ih =>
    rw [compact, compactEntries_eq]
    by_cases hne : entries = []
    · subst hne
      exact .emptyTable
    · exact .table isGap_nil isGap_nil isGap_nil hne keys ih

theorem isTextOf_pretty (h : d.IsWritable) (level : Nat) : IsTextOf d (pretty level d) := by
  induction h generalizing level with
  | null => exact .null
  | bool b => exact isTextOf_bool b
  | int low high => exact .int low high
  | float finite => exact isTextOf_float finite
  | text s => exact .text s
  | @list items each ih =>
    by_cases hne : items = []
    · subst hne
      exact .emptyList
    · rw [pretty, prettyItems_eq, List.cons_append, List.cons_append, List.append_assoc]
      · exact .list (isGap_lineBreak _) (isGap_lineBreak _) hne fun d hd => ih d hd _
      · exact hne
  | @table entries keys each ih =>
    by_cases hne : entries = []
    · subst hne
      exact .emptyTable
    · rw [pretty, prettyEntries_eq, List.cons_append, List.cons_append, List.append_assoc]
      · exact .table (isGap_lineBreak _) (isGap_lineBreak _) isGap_space hne keys
          fun e he => ih e he _
      · exact hne

theorem isVisible_of_digits {ds : List Char} (hds : ∀ c ∈ ds, c.isDigit = true) :
    IsVisible ds := by
  intro c hc
  obtain ⟨n, -, hn⟩ := Text.exists_toNat_eq_of_isDigit (hds c hc)
  have hzero : '0'.toNat = 48 := rfl
  omega

theorem isVisible_decimalInt (n : Int) : IsVisible (Text.decimalInt n) := by
  have hdigits := isVisible_of_digits (Text.isNumeral_decimal n.natAbs).2
  unfold Text.decimalInt
  split
  · exact hdigits.cons (by decide)
  · exact hdigits

theorem isVisible_literalText {whole : List Char} {fraction : Option (List Char)}
    (hw : IsWhole whole) (hf : ∀ ds ∈ fraction, Text.IsNumeral ds) (exponent : Option Int) :
    IsVisible (literalText whole fraction exponent) := by
  refine (isVisible_of_digits hw.1.2).append (IsVisible.append ?_ ?_)
  · cases fraction with
    | none => decide
    | some ds => exact (isVisible_of_digits (hf ds rfl).2).cons (by decide)
  · cases exponent with
    | none => decide
    | some e =>
      refine ((isVisible_of_digits (Text.isNumeral_decimal e.natAbs).2).cons ?_).cons (by decide)
      split <;> decide

theorem isVisible_numberText {x : Binary64} {t : List Char} (ht : numberText? x = some t) :
    IsVisible t := by
  obtain ⟨negative, m, e, h, rfl, rfl⟩ := numberText?_eq_some_iff.1 ht
  obtain ⟨d, whole, fraction, exponent, htext, hliteral, -⟩ := exists_isLiteralOf_magnitudeText h
  have hmagnitude := isVisible_literalText hliteral.isWhole hliteral.isNumeral exponent
  rw [← htext] at hmagnitude
  cases negative with
  | true => exact hmagnitude.cons (by decide)
  | false => exact hmagnitude

theorem isVisible_scalar (d : Datum) : IsVisible (scalar d) := by
  cases d with
  | null => decide
  | bool b => cases b <;> decide
  | int n => exact isVisible_decimalInt n
  | float x =>
    rw [scalar]
    cases hx : numberText? x with
    | none => decide
    | some t => exact isVisible_numberText hx
  | text s => exact isVisible_string s
  | list items => exact isVisible_nil
  | table entries => exact isVisible_nil

theorem isVisible_commaJoined {ts : List (List Char)} (hts : ∀ t ∈ ts, IsVisible t) :
    IsVisible (commaJoined [] ts) := by
  induction ts with
  | nil => exact isVisible_nil
  | cons t ts ih =>
    obtain ⟨ht, hts⟩ := List.forall_mem_cons.1 hts
    by_cases hne : ts = []
    · subst hne
      exact ht
    · rw [commaJoined_cons hne, List.nil_append]
      exact ht.append ((ih hts).cons (by decide))

/-- On one line there are no control characters, whatever the texts of the datum hold. -/
theorem isVisible_compact (h : d.IsWritable) : IsVisible (compact d) := by
  induction h with
  | null => exact isVisible_scalar .null
  | bool b => exact isVisible_scalar (.bool b)
  | int low high => exact isVisible_scalar (.int _)
  | float finite => exact isVisible_scalar (.float _)
  | text s => exact isVisible_scalar (.text s)
  | @list items each ih =>
    rw [compact, compactItems_eq]
    refine (IsVisible.append (isVisible_commaJoined ?_) (by decide)).cons (by decide)
    exact List.forall_mem_map.2 ih
  | @table entries keys each ih =>
    rw [compact, compactEntries_eq]
    refine (IsVisible.append (isVisible_commaJoined ?_) (by decide)).cons (by decide)
    refine List.forall_mem_map.2 fun e he => (isVisible_string e.1).append ?_
    exact (ih e he).cons (by decide)

/-- Read again, both layouts of a document give the datum that was written. -/
theorem parse?_render (h : d.IsWritable) (isPretty : Bool) :
    parse? (render isPretty d ++ "\n") = some d := by
  have hblank : IsGap ['\n'] := by simp [IsGap, isSpace]
  have htext : IsTextOf d (if isPretty then pretty 0 d else compact d) := by
    cases isPretty with
    | true => exact isTextOf_pretty h 0
    | false => exact isTextOf_compact h
  have hread := parse?_of_isTextOf htext hblank
  rwa [String.ofList_append] at hread

end Json
end RenderFarm

import RenderFarm.Proofs.Json.Numbers
import RenderFarm.Proofs.Json.Strings

/-! Texts of data in JSON. The tokens of a text tell the datum, and gaps of blank characters between
them count for nothing: whatever the gaps are, the datum is read from its text. Integers have to be
of 64 bits, numbers finite, and the names of a table different from each other. -/
namespace RenderFarm
namespace Json

def IsGap (s : List Char) : Prop := ∀ c ∈ s, isSpace c = true

/-- Texts with commas between them and a gap before each. -/
def commaJoined (gap : List Char) : List (List Char) → List Char
  | [] => []
  | [t] => gap ++ t
  | t :: ts => gap ++ (t ++ ',' :: commaJoined gap ts)

def entryText (gap : List Char) (k : String) (t : List Char) : List Char :=
  string k ++ ':' :: (gap ++ t)

/-- The text stands for the datum. -/
inductive IsTextOf : Datum → List Char → Prop where
  | null : IsTextOf .null ['n', 'u', 'l', 'l']
  | yes : IsTextOf (.bool true) ['t', 'r', 'u', 'e']
  | no : IsTextOf (.bool false) ['f', 'a', 'l', 's', 'e']
  | int {n : Int} (low : Int64.minValue.toInt ≤ n) (high : n < UInt64.size) :
    IsTextOf (.int n) (Text.decimalInt n)
  | float {x : Binary64} {t : List Char} (written : numberText? x = some t) : IsTextOf (.float x) t
  | text (s : String) : IsTextOf (.text s) (string s)
  | emptyList : IsTextOf (.list []) ['[', ']']
  | list {items : List Datum} {text : Datum → List Char} {gap last : List Char} (hgap : IsGap gap)
      (hlast : IsGap last) (nonempty : items ≠ []) (each : ∀ d ∈ items, IsTextOf d (text d)) :
    IsTextOf (.list items) ('[' :: (commaJoined gap (items.map text) ++ (last ++ [']'])))
  | emptyTable : IsTextOf (.table []) ['\x7b', '\x7d']
  | table {entries : List (String × Datum)} {text : Datum → List Char}
      {gap last colonGap : List Char} (hgap : IsGap gap) (hlast : IsGap last)
      (hcolon : IsGap colonGap) (nonempty : entries ≠ []) (keys : (entries.map Prod.fst).Nodup)
      (each : ∀ e ∈ entries, IsTextOf e.2 (text e.2)) :
    IsTextOf (.table entries)
      ('\x7b' ::
        (commaJoined gap (entries.map fun e => entryText colonGap e.1 (text e.2)) ++
          (last ++ ['\x7d'])))

variable {gap last rest s t : List Char} {d : Datum}

theorem skipSpace_append (hgap : IsGap gap) (s : List Char) :
    skipSpace (gap ++ s) = skipSpace s :=
  List.dropWhile_append_of_pos hgap

theorem skipSpace_cons {c : Char} (hc : isSpace c = false) (s : List Char) :
    skipSpace (c :: s) = c :: s := by
  simp [skipSpace, hc]

@[simp] theorem skipSpace_skipSpace (s : List Char) : skipSpace (skipSpace s) = skipSpace s := by
  unfold skipSpace
  induction s with
  | nil => rfl
  | cons c s ih =>
    cases hc : isSpace c with
    | true => simpa [hc] using ih
    | false => simp [hc]

theorem endsNumber_nil : EndsNumber [] := by simp [EndsNumber]

theorem endsNumber_of_head {c : Char} (hc : c.isDigit = false ∧ c ≠ '.' ∧ c ≠ 'e' ∧ c ≠ 'E')
    (s : List Char) : EndsNumber (c :: s) := by
  rintro _ ⟨⟩
  exact hc

theorem endsNumber_gap_append (hgap : IsGap gap) (hs : EndsNumber s) : EndsNumber (gap ++ s) := by
  cases gap with
  | nil => exact hs
  | cons c gap =>
    refine endsNumber_of_head ?_ _
    have hc := hgap c (List.mem_cons_self ..)
    simp only [isSpace, Bool.or_eq_true, decide_eq_true_eq] at hc
    obtain ((rfl | rfl) | rfl) | rfl := hc <;> decide

def Opens (s : List Char) : Prop :=
  ∃ c cs, s = c :: cs ∧ isSpace c = false ∧ c ≠ ']' ∧ c ≠ '\x7d'

theorem Opens.skipSpace_append (ht : Opens t) (s : List Char) :
    skipSpace (t ++ s) = t ++ s := by
  obtain ⟨c, cs, rfl, hc, -⟩ := ht
  exact skipSpace_cons hc _

theorem Opens.append (ht : Opens t) (s : List Char) : Opens (t ++ s) := by
  obtain ⟨c, cs, rfl, hc⟩ := ht
  exact ⟨c, cs ++ s, rfl, hc⟩

theorem not_isSpace_of_isDigit {c : Char} (hc : c.isDigit = true) :
    isSpace c = false ∧ c ≠ ']' ∧ c ≠ '\x7d' := by
  refine ⟨?_, ?_, ?_⟩
  · by_contra hspace
    simp only [isSpace, Bool.or_eq_true, decide_eq_true_eq, Bool.not_eq_false] at hspace
    obtain ((rfl | rfl) | rfl) | rfl := hspace <;> exact absurd hc (by decide)
  · rintro rfl
    exact absurd hc (by decide)
  · rintro rfl
    exact absurd hc (by decide)

theorem opens_of_number? {p : Datum × List Char} (h : number? s = some p) : Opens s := by
  obtain ⟨c, cs, rfl, rfl | hc⟩ := head?_of_number? h
  · exact ⟨_, _, rfl, by decide⟩
  · exact ⟨_, _, rfl, not_isSpace_of_isDigit hc⟩

theorem value?_of_number? {p : Datum × List Char} (h : number? s = some p) (fuel : Nat) :
    value? (fuel + 1) s = some p := by
  obtain ⟨c, cs, rfl, hc⟩ := head?_of_number? h
  have hne : c ≠ 'n' ∧ c ≠ 't' ∧ c ≠ 'f' ∧ c ≠ '"' ∧ c ≠ '[' ∧ c ≠ '\x7b' := by
    obtain rfl | hc := hc
    · decide
    · refine ⟨?_, ?_, ?_, ?_, ?_, ?_⟩ <;> (rintro rfl; exact absurd hc (by decide))
  obtain ⟨hn, ht, hf, hquote, hbracket, hbrace⟩ := hne
  rw [value?]
  · exact h
  all_goals
    intros
    rename_i heq
    injection heq
    contradiction

theorem items?_skipSpace (fuel : Nat) (s : List Char) :
    items? fuel (skipSpace s) = items? fuel s := by
  cases fuel with
  | zero => rfl
  | succ fuel => rw [items?, items?, skipSpace_skipSpace]

theorem entries?_skipSpace (fuel : Nat) (s : List Char) :
    entries? fuel (skipSpace s) = entries? fuel s := by
  cases fuel with
  | zero => rfl
  | succ fuel => rw [entries?, entries?, skipSpace_skipSpace]

theorem value?_bracket (hs : Opens (skipSpace s)) (fuel : Nat) :
    value? (fuel + 1) ('[' :: s) = (items? fuel s).map fun (ds, r) => (.list ds, r) := by
  obtain ⟨c, cs, hc, -, hclose, -⟩ := hs
  rw [value?, ← items?_skipSpace fuel s, hc]
  split
  · rename_i heq
    exact absurd (List.cons.inj heq).1 hclose
  · rfl

theorem value?_brace (hs : Opens (skipSpace s)) (fuel : Nat) :
    value? (fuel + 1) ('\x7b' :: s) = (entries? fuel s).map fun (es, r) => (.table es, r) := by
  obtain ⟨c, cs, hc, -, -, hclose⟩ := hs
  rw [value?, ← entries?_skipSpace fuel s, hc]
  split
  · rename_i heq
    exact absurd (List.cons.inj heq).1 hclose
  · rfl

/-- The text starts with a token, and before what cannot go on with a number it is read as the
datum. -/
structure IsReadAs (d : Datum) (t : List Char) : Prop where
  opens : Opens t
  value {fuel : Nat} {rest : List Char} (hfuel : 2 * t.length ≤ fuel) (hrest : EndsNumber rest) :
    value? fuel (t ++ rest) = some (d, rest)

/-- A text that is read from its first character on, with one step less for the others. -/
theorem isReadAs_cons {c : Char} {cs : List Char} (hc : isSpace c = false ∧ c ≠ ']' ∧ c ≠ '\x7d')
    (hvalue : ∀ fuel rest, 2 * cs.length < fuel → EndsNumber rest →
      value? (fuel + 1) (c :: (cs ++ rest)) = some (d, rest)) : IsReadAs d (c :: cs) := by
  refine ⟨⟨c, cs, rfl, hc⟩, fun {fuel rest} hfuel hrest => ?_⟩
  rw [List.length_cons] at hfuel
  obtain ⟨fuel, rfl⟩ : ∃ k, fuel = k + 1 := ⟨fuel - 1, by omega⟩
  exact hvalue fuel rest (by omega) hrest

theorem isReadAs_of_number? (h : ∀ {rest}, EndsNumber rest → number? (t ++ rest) = some (d, rest)) :
    IsReadAs d t := by
  have hread := h endsNumber_nil
  rw [List.append_nil] at hread
  obtain ⟨c, cs, rfl, hc⟩ := opens_of_number? hread
  exact isReadAs_cons hc fun fuel rest _ hrest => value?_of_number? (h hrest) fuel

theorem isReadAs_string (s : String) : IsReadAs (.text s) (string s) := by
  obtain ⟨t, htext, hread⟩ := string?_string s
  rw [htext]
  refine isReadAs_cons (by decide) fun fuel rest _ _ => ?_
  rw [value?, hread, Option.map_some]

theorem opens_string (s : String) : Opens (string s) := (isReadAs_string s).opens

theorem commaJoined_cons {t : List Char} {ts : List (List Char)} (hts : ts ≠ []) :
    commaJoined gap (t :: ts) = gap ++ (t ++ ',' :: commaJoined gap ts) := by
  cases ts with
  | nil => exact absurd rfl hts
  | cons u ts => rfl

theorem opens_commaJoined (hgap : IsGap gap) {ts : List (List Char)} (hts : ts ≠ [])
    (hopens : ∀ t ∈ ts, Opens t) (s : List Char) : Opens (skipSpace (commaJoined gap ts ++ s)) := by
  obtain ⟨t, ts, rfl⟩ := List.exists_cons_of_ne_nil hts
  have ht := hopens t (List.mem_cons_self ..)
  obtain ⟨r, hr⟩ : ∃ r, commaJoined gap (t :: ts) = gap ++ (t ++ r) := by
    cases ts with
    | nil => exact ⟨[], by rw [List.append_nil]; rfl⟩
    | cons u ts => exact ⟨_, rfl⟩
  rw [hr, List.append_assoc, List.append_assoc, skipSpace_append hgap, ht.skipSpace_append]
  exact ht.append _

theorem skipSpace_gap_cons {c : Char} (hgap : IsGap gap) (hc : isSpace c = false) (s : List Char) :
    skipSpace (gap ++ c :: s) = c :: s := by
  rw [skipSpace_append hgap, skipSpace_cons hc]

section Steps

variable {r : List Char} {fuel : Nat}

theorem items?_text (hgap : IsGap gap) (hd : IsReadAs d t) (hfuel : 2 * t.length ≤ fuel)
    (hr : EndsNumber r) :
    items? (fuel + 1) (gap ++ (t ++ r)) =
      match skipSpace r with
      | ',' :: r => (items? fuel r).bind fun (ds, r) => some (d :: ds, r)
      | ']' :: r => some ([d], r)
      | _ => none := by
  rw [items?, skipSpace_append hgap, hd.opens.skipSpace_append, hd.value hfuel hr,
    Option.bind_eq_bind, Option.bind_some]
  rfl

variable {colonGap : List Char}

theorem entries?_entryText (hgap : IsGap gap) (hcolon : IsGap colonGap) (hd : IsReadAs d t)
    (hfuel : 2 * t.length ≤ fuel) (hr : EndsNumber r) (k : String) :
    entries? (fuel + 1) (gap ++ (entryText colonGap k t ++ r)) =
      match skipSpace r with
      | ',' :: r => (entries? fuel r).bind fun (es, r) => some (addEntry k d es, r)
      | '\x7d' :: r => some ([(k, d)], r)
      | _ => none := by
  obtain ⟨name, hname, hread⟩ := string?_string k
  have htext : entryText colonGap k t ++ r = '"' :: (name ++ ':' :: (colonGap ++ (t ++ r))) := by
    simp [entryText, hname]
  rw [htext, entries?, skipSpace_gap_cons hgap (by decide)]
  change (string? _).bind _ = _
  rw [hread, Option.bind_some]
  dsimp only
  rw [skipSpace_cons (by decide)]
  change (value? fuel (skipSpace (colonGap ++ (t ++ r)))).bind _ = _
  rw [skipSpace_append hcolon, hd.opens.skipSpace_append, hd.value hfuel hr, Option.bind_some]
  rfl

end Steps

/-- A list is read item by item, with any gaps between the items and before the closing bracket. -/
theorem items?_commaJoined {text : Datum → List Char} (hgap : IsGap gap) (hlast : IsGap last)
    {items : List Datum} (hne : items ≠ []) (hread : ∀ d ∈ items, IsReadAs d (text d)) {fuel : Nat}
    (hfuel : 2 * (commaJoined gap (items.map text)).length < fuel) (rest : List Char) :
    items? fuel (commaJoined gap (items.map text) ++ (last ++ ']' :: rest)) =
      some (items, rest) := by
  induction items generalizing fuel with
  | nil => exact absurd rfl hne
  | cons d ds ih =>
    obtain ⟨fuel, rfl⟩ : ∃ k, fuel = k + 1 := ⟨fuel - 1, by omega⟩
    have hd := hread d (List.mem_cons_self ..)
    by_cases hds : ds = []
    · subst hds
      simp only [List.map_cons, List.map_nil, commaJoined, List.length_append] at hfuel ⊢
      rw [List.append_assoc, items?_text hgap hd (by omega)
        (endsNumber_gap_append hlast (endsNumber_of_head (by decide) rest)),
        skipSpace_gap_cons hlast (by decide)]
      rfl
    · rw [List.map_cons, commaJoined_cons (by simpa using hds)] at hfuel ⊢
      simp only [List.length_append, List.length_cons] at hfuel
      have htail := ih hds (fun d hd => hread d (List.mem_cons_of_mem _ hd))
        (show _ < fuel by omega)
      rw [List.append_assoc, List.append_assoc, List.cons_append,
        items?_text hgap hd (by omega) (endsNumber_of_head (by decide) _),
        skipSpace_cons (by decide)]
      change (items? fuel _).bind _ = _
      rw [htail, Option.bind_some]

theorem addEntry_of_not_mem {k : String} {es : List (String × Datum)}
    (hk : k ∉ es.map Prod.fst) (d : Datum) : addEntry k d es = (k, d) :: es := by
  refine if_neg ?_
  rw [List.any_eq_true]
  rintro ⟨e, he, heq⟩
  exact hk (List.mem_map.2 ⟨e, he, eq_of_beq heq⟩)

theorem opens_entryText (colonGap : List Char) (k : String) (t : List Char) :
    Opens (entryText colonGap k t) :=
  (opens_string k).append _

theorem entries?_commaJoined {text : Datum → List Char} {colonGap : List Char} (hgap : IsGap gap)
    (hlast : IsGap last) (hcolon : IsGap colonGap) {entries : List (String × Datum)}
    (hne : entries ≠ []) (hkeys : (entries.map Prod.fst).Nodup)
    (hread : ∀ e ∈ entries, IsReadAs e.2 (text e.2)) {fuel : Nat}
    (hfuel : 2 * (commaJoined gap
      (entries.map fun e => entryText colonGap e.1 (text e.2))).length < fuel)
    (rest : List Char) :
    entries? fuel (commaJoined gap (entries.map fun e => entryText colonGap e.1 (text e.2)) ++
      (last ++ '\x7d' :: rest)) = some (entries, rest) := by
  induction entries generalizing fuel with
  | nil => exact absurd rfl hne
  | cons e es ih =>
    obtain ⟨k, d⟩ := e
    obtain ⟨hk, hkeys⟩ := List.nodup_cons.1 hkeys
    obtain ⟨fuel, rfl⟩ : ∃ n, fuel = n + 1 := ⟨fuel - 1, by omega⟩
    have hd : IsReadAs d (text d) := hread (k, d) (List.mem_cons_self ..)
    have hlength : (text d).length ≤ (entryText colonGap k (text d)).length := by
      simp only [entryText, List.length_append, List.length_cons]
      omega
    by_cases hes : es = []
    · subst hes
      simp only [List.map_cons, List.map_nil, commaJoined, List.length_append] at hfuel ⊢
      rw [List.append_assoc, entries?_entryText hgap hcolon hd (by omega)
        (endsNumber_gap_append hlast (endsNumber_of_head (by decide) rest)),
        skipSpace_gap_cons hlast (by decide)]
      rfl
    · rw [List.map_cons, commaJoined_cons (by simpa using hes)] at hfuel ⊢
      simp only [List.length_append, List.length_cons] at hfuel
      have htail := ih hes hkeys (fun e he => hread e (List.mem_cons_of_mem _ he))
        (show _ < fuel by omega)
      rw [List.append_assoc, List.append_assoc, List.cons_append,
        entries?_entryText hgap hcolon hd (by omega) (endsNumber_of_head (by decide) _),
        skipSpace_cons (by decide)]
      change (entries? fuel _).bind _ = _
      rw [htail, Option.bind_some]
      dsimp only
      rw [addEntry_of_not_mem hk]

/-- Whatever its gaps are, a text is read as the datum that it stands for. -/
theorem IsTextOf.isReadAs (h : IsTextOf d t) : IsReadAs d t := by
  induction h with
  | null => exact isReadAs_cons (by decide) fun _ _ _ _ => rfl
  | yes => exact isReadAs_cons (by decide) fun _ _ _ _ => rfl
  | no => exact isReadAs_cons (by decide) fun _ _ _ _ => rfl
  | int low high => exact isReadAs_of_number? (number?_decimalInt low high)
  | float written => exact isReadAs_of_number? (number?_numberText written)
  | text s => exact isReadAs_string s
  | emptyList => exact isReadAs_cons (by decide) fun _ _ _ _ => rfl
  | @list items text gap last hgap hlast nonempty each ih =>
    refine isReadAs_cons (by decide) fun fuel rest hfuel _ => ?_
    simp only [List.length_append] at hfuel
    have hstart := opens_commaJoined hgap (mt List.map_eq_nil_iff.1 nonempty)
      (List.forall_mem_map.2 fun d hd => (ih d hd).opens) (last ++ ']' :: rest)
    rw [List.append_assoc, List.append_assoc, List.singleton_append, value?_bracket hstart,
      items?_commaJoined hgap hlast nonempty ih (by omega), Option.map_some]
  | emptyTable => exact isReadAs_cons (by decide) fun _ _ _ _ => rfl
  | @table entries text gap last colonGap hgap hlast hcolon nonempty keys each ih =>
    refine isReadAs_cons (by decide) fun fuel rest hfuel _ => ?_
    simp only [List.length_append] at hfuel
    have hopens : ∀ e ∈ entries, Opens (entryText colonGap e.1 (text e.2)) :=
      fun _ _ => opens_entryText ..
    have hstart := opens_commaJoined hgap (mt List.map_eq_nil_iff.1 nonempty)
      (List.forall_mem_map.2 hopens) (last ++ '\x7d' :: rest)
    rw [List.append_assoc, List.append_assoc, List.singleton_append, value?_brace hstart,
      entries?_commaJoined hgap hlast hcolon nonempty keys ih (by omega), Option.map_some]

/-- A text of a datum is read as the whole of a document, with blank characters after it. -/
theorem parse?_of_isTextOf (h : IsTextOf d t) (hgap : IsGap gap) :
    parse? (String.ofList (t ++ gap)) = some d := by
  have hread := h.isReadAs
  have hends : EndsNumber gap := by
    simpa using endsNumber_gap_append hgap endsNumber_nil
  have hrest : skipSpace gap = [] := by simpa [skipSpace] using skipSpace_append hgap []
  have hfuel : 2 * t.length ≤ 2 * (String.ofList (t ++ gap)).length + 1 := by
    rw [String.length_ofList, List.length_append]
    omega
  rw [parse?, String.toList_ofList, hread.opens.skipSpace_append, hread.value hfuel hends,
    Option.bind_eq_bind, Option.bind_some]
  dsimp only
  rw [hrest]
  rfl

end Json
end RenderFarm

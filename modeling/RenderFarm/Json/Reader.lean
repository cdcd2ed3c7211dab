import RenderFarm.Json.Number

/-! Reading JSON texts. A reader gives what stands at the start of a text, and what follows it. Of
entries with one name in a table the last one counts. -/
namespace RenderFarm
namespace Json

def isSpace (c : Char) : Bool := c = ' ' || c = '\t' || c = '\n' || c = '\r'

def skipSpace (s : List Char) : List Char := s.dropWhile isSpace

def codeUnit? : List Char → Option (Nat × List Char)
  | a :: b :: c :: d :: r => (Text.hexNumber? [a, b, c, d]).map (·, r)
  | _ => none

/-- The character written as one code unit, or as a pair of surrogates. -/
def codePoint? (s : List Char) : Option (Char × List Char) := do
  let (high, r) ← codeUnit? s
  if 0xD800 ≤ high ∧ high < 0xDC00 then
    match r with
    | '\\' :: 'u' :: r =>
      let (low, r) ← codeUnit? r
      if 0xDC00 ≤ low ∧ low < 0xE000 then
        some (Char.ofNat (0x10000 + (high - 0xD800) * 0x400 + (low - 0xDC00)), r)
      else none
    | _ => none
  else if 0xDC00 ≤ high ∧ high < 0xE000 then none
  else some (Char.ofNat high, r)

def escaped? : List Char → Option (Char × List Char)
  | '"' :: r => some ('"', r)
  | '\\' :: r => some ('\\', r)
  | '/' :: r => some ('/', r)
  | 'b' :: r => some ('\x08', r)
  | 'f' :: r => some ('\x0c', r)
  | 'n' :: r => some ('\n', r)
  | 'r' :: r => some ('\r', r)
  | 't' :: r => some ('\t', r)
  | 'u' :: r => codePoint? r
  | _ => none

theorem codeUnit?_length {s r : List Char} {n : Nat} (h : codeUnit? s = some (n, r)) :
    r.length < s.length := by
  match s with
  | a :: b :: c :: d :: t =>
    simp only [codeUnit?, Option.map_eq_some_iff, Prod.mk.injEq] at h
    obtain ⟨_, _, _, rfl⟩ := h
    simp only [List.length_cons]
    omega

theorem codePoint?_length {s r : List Char} {c : Char} (h : codePoint? s = some (c, r)) :
    r.length < s.length := by
  simp only [codePoint?, Option.bind_eq_bind, Option.bind_eq_some_iff] at h
  obtain ⟨⟨high, r₁⟩, h₁, h⟩ := h
  have hr := codeUnit?_length h₁
  dsimp only at h
  split at h
  · split at h
    · simp only [Option.bind_eq_some_iff] at h
      obtain ⟨⟨low, r₂⟩, h₂, h⟩ := h
      have hr₂ := codeUnit?_length h₂
      dsimp only at h
      split at h
      · simp only [Option.some.injEq, Prod.mk.injEq] at h
        obtain ⟨_, rfl⟩ := h
        simp only [List.length_cons] at hr
        omega
      · simp at h
    · simp at h
  · split at h
    · simp at h
    · simp only [Option.some.injEq, Prod.mk.injEq] at h
      obtain ⟨_, rfl⟩ := h
      exact hr

theorem escaped?_length {s r : List Char} {c : Char} (h : escaped? s = some (c, r)) :
    r.length < s.length := by
  unfold escaped? at h
  split at h
  case h_9 => exact Nat.lt_succ_of_lt (codePoint?_length h)
  all_goals simp_all

def stringBody? (s : List Char) : Option (List Char × List Char) :=
  match s with
  | [] => none
  | c :: r =>
    if c = '"' then some ([], r)
    else if c = '\\' then
      match h : escaped? r with
      | none => none
      | some (c, t) =>
        have : t.length < r.length + 1 := Nat.lt_succ_of_lt (escaped?_length h)
        (stringBody? t).map fun (cs, r) => (c :: cs, r)
    else if c.toNat < 0x20 then none
    else (stringBody? r).map fun (cs, r) => (c :: cs, r)
termination_by s.length

def string? (s : List Char) : Option (String × List Char) :=
  (stringBody? s).map fun (cs, r) => (String.ofList cs, r)

/-- An entry put before others, unless one of them has its name. -/
def addEntry (k : String) (d : Datum) (es : List (String × Datum)) : List (String × Datum) :=
  if es.any (·.1 == k) then es else (k, d) :: es

mutual

/-- A value at the start of a text, and what follows it. The fuel bounds the number of steps. -/
def value? : Nat → List Char → Option (Datum × List Char)
  | 0, _ => none
  | fuel + 1, s =>
    match s with
    | 'n' :: 'u' :: 'l' :: 'l' :: r => some (.null, r)
    | 't' :: 'r' :: 'u' :: 'e' :: r => some (.bool true, r)
    | 'f' :: 'a' :: 'l' :: 's' :: 'e' :: r => some (.bool false, r)
    | '"' :: r => (string? r).map fun (s, r) => (.text s, r)
    | '[' :: r =>
      match skipSpace r with
      | ']' :: r => some (.list [], r)
      | r => (items? fuel r).map fun (ds, r) => (.list ds, r)
    | '\x7b' :: r =>
      match skipSpace r with
      | '\x7d' :: r => some (.table [], r)
      | r => (entries? fuel r).map fun (es, r) => (.table es, r)
    | s => number? s

def items? : Nat → List Char → Option (List Datum × List Char)
  | 0, _ => none
  | fuel + 1, s => do
    let (d, r) ← value? fuel (skipSpace s)
    match skipSpace r with
    | ',' :: r => do
      let (ds, r) ← items? fuel r
      some (d :: ds, r)
    | ']' :: r => some ([d], r)
    | _ => none

def entries? : Nat → List Char → Option (List (String × Datum) × List Char)
  | 0, _ => none
  | fuel + 1, s =>
    match skipSpace s with
    | '"' :: r => do
      let (k, r) ← string? r
      match skipSpace r with
      | ':' :: r => do
        let (d, r) ← value? fuel (skipSpace r)
        match skipSpace r with
        | ',' :: r => do
          let (es, r) ← entries? fuel r
          some (addEntry k d es, r)
        | '\x7d' :: r => some ([(k, d)], r)
        | _ => none
      | _ => none
    | _ => none

end

def parse? (s : String) : Option Datum := do
  let (d, r) ← value? (2 * s.length + 1) (skipSpace s.toList)
  if (skipSpace r).isEmpty then some d else none

end Json
end RenderFarm

import RenderFarm.Toml.Scalar
import RenderFarm.Toml.Text

/-! Whole TOML texts: lines with a header, or with a key and its value. Arrays may reach over several
lines and end with a comma; inline tables may not. While a text is read, a table remembers how it
came to be, since that decides how it may grow: a table with a header of its own is closed to dotted
keys from elsewhere, and one made by dotted keys gets no header. -/
namespace RenderFarm
namespace Toml

/-- How a table came to be: by a header, by being on the way to another header's table, or by a
dotted key. -/
inductive Origin where
  | header
  | passage
  | dotted
  deriving DecidableEq

inductive Node where
  | value (d : Datum)
  | table (origin : Origin) (entries : List (String × Node))
  | rows (rows : List (List (String × Node)))

abbrev Entries := List (String × Node)

mutual

def Node.toDatum : Node → Datum
  | .value d => d
  | .table _ entries => .table (entryData entries)
  | .rows rows => .list (rowData rows)

def entryData : List (String × Node) → List (String × Datum)
  | [] => []
  | (k, n) :: r => (k, n.toDatum) :: entryData r

def rowData : List (List (String × Node)) → List Datum
  | [] => []
  | entries :: r => .table (entryData entries) :: rowData r

end

namespace Entries

def replace (k : String) (n : Node) (entries : Entries) : Entries :=
  entries.map fun e => if e.1 == k then (k, n) else e

/-- Changes the table at the end of a path, making the tables on the way that are missing. An array
of tables is entered at its last row. Dotted keys do not enter tables that have a header. -/
def update (dotted : Bool) (change : Origin → Entries → Option Entries) :
    List String → Origin → Entries → Option Entries
  | [], origin, entries => change origin entries
  | k :: path, _, entries =>
    match entries.lookup k with
    | none => do
      let origin : Origin := if dotted then .dotted else .passage
      let inner ← update dotted change path origin []
      some (entries ++ [(k, .table origin inner)])
    | some (.table origin inner) =>
      if dotted ∧ origin = .header then none
      else do
        let inner ← update dotted change path origin inner
        some (replace k (.table origin inner) entries)
    | some (.rows rows) =>
      match rows.reverse with
      | [] => none
      | last :: before => do
        let last ← update dotted change path .header last
        some (replace k (.rows (last :: before).reverse) entries)
    | some (.value _) => none

/-- The entries with a value added under a dotted key. The key is new, and the table that a path
leads to is one that dotted keys made. -/
def addValue (path : List String) (k : String) (d : Datum) (origin : Origin) (entries : Entries) :
    Option Entries :=
  update true (fun origin inner =>
    if (inner.lookup k).isSome ∨ (path ≠ [] ∧ origin ≠ .dotted) then none
    else some (inner ++ [(k, .value d)])) path origin entries

def openTable (path : List String) (k : String) (entries : Entries) : Option Entries :=
  update false (fun _ inner =>
    match inner.lookup k with
    | none => some (inner ++ [(k, .table .header [])])
    | some (.table .passage t) => some (replace k (.table .header t) inner)
    | some _ => none) path .header entries

def openRow (path : List String) (k : String) (entries : Entries) : Option Entries :=
  update false (fun _ inner =>
    match inner.lookup k with
    | none => some (inner ++ [(k, .rows [[]])])
    | some (.rows rows) => some (replace k (.rows (rows ++ [[]])) inner)
    | some _ => none) path .header entries

/-- The entries with a value added below the table of a header that was opened. -/
def addBelow (header path : List String) (k : String) (d : Datum) (entries : Entries) :
    Option Entries :=
  update false (addValue path k d) header .header entries

end Entries

def scalar? (s : List Char) : Option (Datum × List Char) :=
  match s with
  | 't' :: 'r' :: 'u' :: 'e' :: r => some (.bool true, r)
  | 'f' :: 'a' :: 'l' :: 's' :: 'e' :: r => some (.bool false, r)
  | s =>
    match text? s with
    | some (t, r) => some (.text t, r)
    | none => moment? s <|> float? s <|> integer? s

def inlineTable? (pairs : List (List String × String × Datum)) : Option Datum :=
  (pairs.foldlM (fun es p => Entries.addValue p.1 p.2.1 p.2.2 .header es) []).map fun es =>
    .table (entryData es)

mutual

/-- A value, and what follows it. The fuel bounds the number of steps; `room` is how deeply the
value may still be nested. -/
def value? : Nat → Nat → List Char → Option (Datum × List Char)
  | 0, _, _ => none
  | fuel + 1, room, s =>
    match s, room with
    | '[' :: _, 0 => none
    | '\x7b' :: _, 0 => none
    | '[' :: r, room + 1 =>
      (items? fuel room (skipTrivia false r)).map fun (ds, r) => (.list ds, r)
    | '\x7b' :: r, room + 1 =>
      match skipSpace r with
      | '\x7d' :: r => some (.table [], r)
      | r => do
        let (pairs, r) ← pairs? fuel room r
        let d ← inlineTable? pairs
        some (d, r)
    | s, _ => scalar? s

def items? : Nat → Nat → List Char → Option (List Datum × List Char)
  | 0, _, _ => none
  | fuel + 1, room, s =>
    match s with
    | ']' :: r => some ([], r)
    | s => do
      let (d, r) ← value? fuel room s
      match skipTrivia false r with
      | ',' :: r => do
        let (ds, r) ← items? fuel room (skipTrivia false r)
        some (d :: ds, r)
      | ']' :: r => some ([d], r)
      | _ => none

def pairs? : Nat → Nat → List Char → Option (List (List String × String × Datum) × List Char)
  | 0, _, _ => none
  | fuel + 1, room, s => do
    let (path, k, r) ← key? s
    match r with
    | '=' :: r => do
      let (d, r) ← value? fuel room (skipSpace r)
      match skipSpace r with
      | ',' :: r => do
        let (pairs, r) ← pairs? fuel room r
        some ((path, k, d) :: pairs, r)
      | '\x7d' :: r => some ([(path, k, d)], r)
      | _ => none
    | _ => none

end

/-- What the lines read so far say, and the header that the next keys belong to. -/
structure Progress where
  entries : Entries
  header : List String

def pairLine? (s : List Char) : Option (List String × String × Datum × List Char) := do
  let (path, k, r) ← key? s
  match r with
  | '=' :: r => do
    let (d, r) ← value? (2 * r.length + 1) (depthLimit - 1) (skipSpace r)
    some (path, k, d, ← endLine? r)
  | _ => none

def headerLine? (isRow : Bool) (s : List Char) : Option (List String × String × List Char) := do
  let (path, k, r) ← key? s
  match isRow, r with
  | true, ']' :: ']' :: r => some (path, k, ← endLine? r)
  | false, ']' :: r => some (path, k, ← endLine? r)
  | _, _ => none

def step? (p : Progress) (s : List Char) : Option (Progress × List Char) :=
  match s with
  | '[' :: '[' :: r => do
    let (path, k, r) ← headerLine? true r
    some (⟨← p.entries.openRow path k, path ++ [k]⟩, r)
  | '[' :: r => do
    let (path, k, r) ← headerLine? false r
    some (⟨← p.entries.openTable path k, path ++ [k]⟩, r)
  | s => do
    let (path, k, d, r) ← pairLine? s
    some (⟨← p.entries.addBelow p.header path k d, p.header⟩, r)

def lines? (p : Progress) (s : List Char) : Option Entries :=
  match skipTrivia false s with
  | [] => some p.entries
  | c :: r =>
    match step? p (c :: r) with
    | none => none
    | some (p, t) => if t.length < s.length then lines? p t else none
termination_by s.length

/-- The table that a whole text stands for. A byte order mark before it does not count. -/
def parse? (text : String) : Option Datum :=
  let s := match text.toList with
    | '\ufeff' :: r => r
    | s => s
  (lines? ⟨[], []⟩ s).map fun es => .table (entryData es)

end Toml
end RenderFarm

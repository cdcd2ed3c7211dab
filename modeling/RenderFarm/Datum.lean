import RenderFarm.Binary64

/-! Data as documents hold it: scalars, lists, and tables of named entries. Configuration files,
job files and job documents are read into it, and job documents are written from it. A record is
written as a table of its fields without those that have no value; it is read from a table by name
or from a list by position. -/
namespace RenderFarm

inductive Datum where
  | null
  | bool (b : Bool)
  | int (n : Int)
  | float (x : Binary64)
  | text (s : String)
  | list (items : List Datum)
  | table (entries : List (String × Datum))
  deriving Inhabited

namespace Datum

def text? : Datum → Option String
  | text s => some s
  | _ => none

def bool? : Datum → Option Bool
  | bool b => some b
  | _ => none

def list? : Datum → Option (List Datum)
  | list items => some items
  | _ => none

def intWithin? (low high : Int) : Datum → Option Int
  | int n => if low ≤ n ∧ n ≤ high then some n else none
  | _ => none

def int64? (d : Datum) : Option Int64 :=
  (d.intWithin? Int64.minValue.toInt Int64.maxValue.toInt).map Int64.ofInt

def uint32? (d : Datum) : Option UInt32 :=
  (d.intWithin? 0 (UInt32.size - 1 : Nat)).map fun n => UInt32.ofNat n.toNat

def number? : Datum → Option Binary64
  | float x => some x
  | int n => some (.ofInt n)
  | _ => none

/-- A number; documents have none that is not finite. -/
def ofNumber (x : Binary64) : Datum := if x.isFinite then float x else null

def texts? (d : Datum) : Option (List String) := d.list? >>= List.mapM text?

def ofTexts (l : List String) : Datum := list (l.map text)

/-- The table of the fields that have a value. -/
def record (fields : List (String × Option Datum)) : Datum :=
  table (fields.filterMap fun f => f.2.map (f.1, ·))

/-- The values of the fields with the given names. Entries with other names count for nothing; items
beyond the last field are refused if the record is `closed`, and dropped otherwise. -/
def fields? (closed : Bool) (names : List String) : Datum → Option (List (Option Datum))
  | table entries => some (names.map fun k => entries.lookup k)
  | list items =>
    if closed && decide (names.length < items.length) then none
    else some ((List.range names.length).map fun i => items[i]?)
  | _ => none

def required {α : Type} (read : Datum → Option α) (field : Option Datum) : Option α :=
  field >>= read

def defaulted {α : Type} (value : α) (read : Datum → Option α) : Option Datum → Option α
  | none => some value
  | some d => read d

/-- A field that may be missing or `null`. -/
def optional {α : Type} (read : Datum → Option α) : Option Datum → Option (Option α)
  | none => some none
  | some null => some none
  | some d => (read d).map some

def overwrite (changes : List (String × Datum)) : Datum → Datum
  | table entries => table (changes ++ entries)
  | d => d

theorem lookup_filterMap_of_not_mem {k : String} {fields : List (String × Option Datum)}
    (h : k ∉ fields.map Prod.fst) :
    (fields.filterMap fun f => f.2.map (f.1, ·)).lookup k = none := by
  induction fields with
  | nil => rfl
  | cons f fields ih =>
    obtain ⟨name, value⟩ := f
    simp only [List.map_cons, List.mem_cons, not_or] at h
    cases value with
    | none => simpa using ih h.2
    | some d => simpa [List.lookup_cons, beq_eq_false_iff_ne.2 h.1] using ih h.2

theorem lookup_filterMap_zip {names : List String} (hnames : names.Nodup)
    {values : List (Option Datum)} (hlength : names.length = values.length) :
    (names.map fun k =>
      ((names.zip values).filterMap fun f => f.2.map (f.1, ·)).lookup k) = values := by
  induction names generalizing values with
  | nil => simpa using hlength.symm
  | cons k names ih =>
    match values with
    | [] => simp at hlength
    | v :: values =>
      obtain ⟨hk, hnames⟩ := List.nodup_cons.1 hnames
      have hlen : names.length = values.length := by simpa using hlength
      have hmap : (names.zip values).map Prod.fst = names := List.map_fst_zip (by omega)
      have hne : ∀ j ∈ names, (j == k) = false := fun j hj =>
        beq_eq_false_iff_ne.2 fun h => hk (h ▸ hj)
      cases v with
      | none =>
        simp only [List.zip_cons_cons, List.filterMap_cons, Option.map_none, List.map_cons,
          ih hnames hlen]
        rw [lookup_filterMap_of_not_mem (by rwa [hmap])]
      | some d =>
        simp only [List.zip_cons_cons, List.filterMap_cons, Option.map_some, List.map_cons,
          List.lookup_cons, beq_self_eq_true]
        refine congrArg _ ((List.map_congr_left fun j hj => ?_).trans (ih hnames hlen))
        simp [hne j hj]

/-- Writing a record's values and reading them gives the same values. -/
theorem fields?_record {names : List String} (hnames : names.Nodup) {values : List (Option Datum)}
    (hlength : names.length = values.length) (closed : Bool) :
    (record (names.zip values)).fields? closed names = some values := by
  simp only [record, fields?, lookup_filterMap_zip hnames hlength]

end Datum
end RenderFarm

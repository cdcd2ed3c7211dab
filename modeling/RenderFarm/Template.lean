/-! Texts with placeholders. A placeholder is a non-empty name between braces, the name reaching
from the opening brace to the nearest closing one; every other brace is literal. Substitution
replaces the placeholders that have a value, once, and leaves the others as written. -/
namespace RenderFarm

/-- A placeholder's name and the literal text that follows it. -/
structure Slot where
  name : List Char
  trail : List Char
  deriving DecidableEq

/-- A text taken apart: the literal text before the first placeholder, then the placeholders, each
with the literal text that follows it. -/
structure Template where
  lead : List Char
  slots : List Slot
  deriving DecidableEq

/-- Values for placeholder names; of two values for one name the one added later counts. -/
structure Context where
  values : List (String × String)

namespace Context

def empty : Context := ⟨[]⟩

def define (ctx : Context) (name value : String) : Context := ⟨(name, value) :: ctx.values⟩

def value? (ctx : Context) (name : String) : Option String := ctx.values.lookup name

@[simp] theorem value?_empty (name : String) : empty.value? name = none := rfl

theorem value?_define (ctx : Context) (k v name : String) :
    (ctx.define k v).value? name = if name = k then some v else ctx.value? name := by
  by_cases h : name = k
  · simp [define, value?, h]
  · simp [define, value?, List.lookup_cons, h, beq_eq_false_iff_ne.2 h]

end Context

namespace Template

/-- The non-empty name up to the nearest closing brace, and what follows that. -/
def nameAt? (s : List Char) : Option (List Char × List Char) :=
  match s.takeWhile (· != '\x7d'), s.dropWhile (· != '\x7d') with
  | c :: n, _ :: rest => some (c :: n, rest)
  | _, _ => none

theorem nameAt?_length {s name rest : List Char} (h : nameAt? s = some (name, rest)) :
    rest.length < s.length := by
  have hs : (s.dropWhile (· != '\x7d')).length ≤ s.length := (List.dropWhile_sublist _).length_le
  unfold nameAt? at h
  split at h
  · rename_i h₂
    simp only [Option.some.injEq, Prod.mk.injEq] at h
    obtain ⟨_, rfl⟩ := h
    rw [h₂, List.length_cons] at hs
    omega
  · simp at h

/-- The placeholder that a character starts: its name and what follows it. -/
def slotAt? (c : Char) (s : List Char) : Option (List Char × List Char) :=
  if c = '\x7b' then nameAt? s else none

theorem slotAt?_length {c : Char} {s name rest : List Char}
    (h : slotAt? c s = some (name, rest)) : rest.length < s.length := by
  unfold slotAt? at h
  split at h
  · exact nameAt?_length h
  · simp at h

def ofList (s : List Char) : Template :=
  match s with
  | [] => ⟨[], []⟩
  | c :: r =>
    match h : slotAt? c r with
    | some (name, rest) =>
      have : rest.length < r.length + 1 := Nat.lt_succ_of_lt (slotAt?_length h)
      let t := ofList rest
      ⟨[], ⟨name, t.lead⟩ :: t.slots⟩
    | none =>
      let t := ofList r
      ⟨c :: t.lead, t.slots⟩
termination_by s.length

/-- A placeholder as it is written. -/
def placeholderText (name : List Char) : List Char := '\x7b' :: name ++ ['\x7d']

def toList (t : Template) : List Char :=
  t.lead ++ t.slots.flatMap fun s => placeholderText s.name ++ s.trail

def names (t : Template) : List String := t.slots.map fun s => String.ofList s.name

/-- What stands for a placeholder: its value, or the placeholder as written. -/
def filling (ctx : Context) (name : List Char) : List Char :=
  match ctx.value? (String.ofList name) with
  | some v => v.toList
  | none => placeholderText name

def fill (ctx : Context) (t : Template) : List Char :=
  t.lead ++ t.slots.flatMap fun s => filling ctx s.name ++ s.trail

end Template

/-- The names of the placeholders of a text, in order and with repetitions. -/
def placeholders (s : String) : List String := (Template.ofList s.toList).names

/-- A text with the placeholders that have a value replaced by it. -/
def Context.substitute (ctx : Context) (s : String) : String :=
  String.ofList ((Template.ofList s.toList).fill ctx)
end RenderFarm

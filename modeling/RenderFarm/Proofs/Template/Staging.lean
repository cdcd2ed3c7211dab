import Mathlib.Data.List.Basic
import RenderFarm.Proofs.Template.Reading

/-! Substitution in stages. Values that hold no opening brace cannot start a placeholder, so that a
text in which some values were put in still reads as before: the placeholders without a value are
there as they were, in their order, and the rest is literal. What one context leaves open another
can fill later, and the text comes out as if both had been used at once. -/
namespace RenderFarm

namespace Context

/-- No value holds an opening brace. -/
def BraceFree (ctx : Context) : Prop :=
  ∀ name v, ctx.value? name = some v → '\x7b' ∉ v.toList

theorem braceFree_empty : empty.BraceFree := by
  intro name v h
  cases h

theorem BraceFree.define {ctx : Context} (h : ctx.BraceFree) {k v : String}
    (hv : '\x7b' ∉ v.toList) : (ctx.define k v).BraceFree := by
  intro name w hw
  rw [value?_define] at hw
  split at hw
  · cases hw
    exact hv
  · exact h name w hw

/-- The values of both contexts; for a name that has two, the one of the first context counts. -/
def union (a b : Context) : Context := ⟨a.values ++ b.values⟩

@[simp] theorem value?_union (a b : Context) (name : String) :
    (a.union b).value? name = (a.value? name).or (b.value? name) :=
  List.lookup_append

theorem union_eq_foldr_define (a b : Context) :
    a.union b = a.values.foldr (fun p ctx => ctx.define p.1 p.2) b := by
  obtain ⟨values⟩ := a
  induction values with
  | nil => rfl
  | cons p values ih =>
    rw [List.foldr_cons, ← ih]
    rfl

end Context

namespace Template

variable {ctx a b : Context}

theorem toList_cons (lead : List Char) (s : Slot) (slots : List Slot) :
    (⟨lead, s :: slots⟩ : Template).toList =
      lead ++ placeholderText s.name ++ (⟨s.trail, slots⟩ : Template).toList := by
  simp [toList]

theorem fill_cons (ctx : Context) (lead : List Char) (s : Slot) (slots : List Slot) :
    (⟨lead, s :: slots⟩ : Template).fill ctx =
      lead ++ filling ctx s.name ++ (⟨s.trail, slots⟩ : Template).fill ctx := by
  simp [fill]

def prepend (text : List Char) (t : Template) : Template := ⟨text ++ t.lead, t.slots⟩

@[simp] theorem toList_prepend (text : List Char) (t : Template) :
    (t.prepend text).toList = text ++ t.toList :=
  List.append_assoc ..

@[simp] theorem fill_prepend (text : List Char) (t : Template) :
    (t.prepend text).fill ctx = text ++ t.fill ctx :=
  List.append_assoc ..

@[simp] theorem names_prepend (text : List Char) (t : Template) :
    (t.prepend text).names = t.names := rfl

theorem AtBraces.append {P : List Char → Prop} (hP : ∀ s, ClosedAtOnce s → P s) {s t : List Char}
    (hs : AtBraces ClosedAtOnce s) (ht : AtBraces P t) : AtBraces P (s ++ t) := by
  induction s with
  | nil => exact ht
  | cons c s ih =>
    obtain ⟨hc, hs⟩ := atBraces_cons.1 hs
    refine atBraces_cons.2 ⟨fun hbrace => hP _ ?_, ih hs⟩
    obtain ⟨r, rfl⟩ := List.head?_eq_some_iff.1 (hc hbrace)
    rfl

theorem IsReading.prepend {t : Template} (h : t.IsReading) {text : List Char}
    (htext : AtBraces ClosedAtOnce text) : (t.prepend text).IsReading := by
  obtain ⟨lead, slots⟩ := t
  cases slots with
  | nil => exact isReading_nil.2 (htext.append (fun _ => .inl) (isReading_nil.1 h))
  | cons s slots =>
    obtain ⟨hlead, hs, htail⟩ := isReading_cons.1 h
    exact isReading_cons.2 ⟨htext.append (fun _ hc => hc) hlead, hs, htail⟩

/-- What values leave of a template: the placeholders without a value, and all else as literal text
between them. -/
def resolve (ctx : Context) : Template → Template
  | ⟨lead, slots⟩ => go lead slots
where
  go (lead : List Char) : List Slot → Template
    | [] => ⟨lead, []⟩
    | s :: slots =>
      let rest := go s.trail slots
      match ctx.value? (String.ofList s.name) with
      | some v => rest.prepend (lead ++ v.toList)
      | none => ⟨lead, ⟨s.name, rest.lead⟩ :: rest.slots⟩

@[simp] theorem resolve_nil (lead : List Char) : resolve ctx ⟨lead, []⟩ = ⟨lead, []⟩ := rfl

theorem resolve_cons_of_value {s : Slot} {v : String}
    (h : ctx.value? (String.ofList s.name) = some v) (lead : List Char) (slots : List Slot) :
    resolve ctx ⟨lead, s :: slots⟩ =
      (resolve ctx ⟨s.trail, slots⟩).prepend (lead ++ v.toList) := by
  simp [resolve, resolve.go, h]

theorem resolve_cons_of_no_value {s : Slot} (h : ctx.value? (String.ofList s.name) = none)
    (lead : List Char) (slots : List Slot) :
    resolve ctx ⟨lead, s :: slots⟩ =
      ⟨lead, ⟨s.name, (resolve ctx ⟨s.trail, slots⟩).lead⟩ ::
        (resolve ctx ⟨s.trail, slots⟩).slots⟩ := by
  simp [resolve, resolve.go, h]

theorem toList_resolve (ctx : Context) (t : Template) : (t.resolve ctx).toList = t.fill ctx := by
  obtain ⟨lead, slots⟩ := t
  induction slots generalizing lead with
  | nil => rfl
  | cons s slots ih =>
    cases h : ctx.value? (String.ofList s.name) with
    | some v =>
      rw [resolve_cons_of_value h, toList_prepend, ih, fill_cons, filling_of_value h]
    | none =>
      rw [resolve_cons_of_no_value h, toList_cons, ih, fill_cons, filling_of_no_value h]

theorem names_resolve (ctx : Context) (t : Template) :
    (t.resolve ctx).names = t.names.filter fun name => (ctx.value? name).isNone := by
  obtain ⟨lead, slots⟩ := t
  induction slots generalizing lead with
  | nil => rfl
  | cons s slots ih =>
    have hnames : (⟨lead, s :: slots⟩ : Template).names =
        String.ofList s.name :: (⟨s.trail, slots⟩ : Template).names := rfl
    cases h : ctx.value? (String.ofList s.name) with
    | some v =>
      rw [resolve_cons_of_value h, names_prepend, ih, hnames]
      simp [h]
    | none =>
      rw [resolve_cons_of_no_value h, hnames, List.filter_cons_of_pos (by simp [h]), ← ih]
      rfl

theorem fill_resolve (a b : Context) (t : Template) :
    (t.resolve a).fill b = t.fill (a.union b) := by
  obtain ⟨lead, slots⟩ := t
  induction slots generalizing lead with
  | nil => rfl
  | cons s slots ih =>
    have hunion : (a.union b).value? (String.ofList s.name) =
        (a.value? (String.ofList s.name)).or (b.value? (String.ofList s.name)) :=
      Context.value?_union a b _
    cases h : a.value? (String.ofList s.name) with
    | some v =>
      rw [h, Option.some_or] at hunion
      rw [resolve_cons_of_value h, fill_prepend, ih, fill_cons, filling_of_value hunion]
    | none =>
      rw [h, Option.none_or] at hunion
      have hfilling : filling (a.union b) s.name = filling b s.name := by
        rw [filling, filling, hunion]
      rw [resolve_cons_of_no_value h, fill_cons, ih, fill_cons, hfilling]

/-- What is left is read from its text again if no value holds an opening brace. -/
theorem IsReading.resolve {t : Template} (h : t.IsReading) (hctx : ctx.BraceFree) :
    (t.resolve ctx).IsReading := by
  obtain ⟨lead, slots⟩ := t
  induction slots generalizing lead with
  | nil => exact h
  | cons s slots ih =>
    obtain ⟨hlead, hs, htail⟩ := isReading_cons.1 h
    have hrest := ih s.trail htail
    cases hv : ctx.value? (String.ofList s.name) with
    | some v =>
      rw [resolve_cons_of_value hv]
      exact hrest.prepend
        (hlead.append (fun _ hc => hc) (atBraces_of_not_mem (hctx _ v hv)))
    | none =>
      rw [resolve_cons_of_no_value hv]
      exact isReading_cons.2 ⟨hlead, hs, hrest⟩

/-- Scanning a filled text finds what the values have left. -/
theorem ofList_fill (h : ctx.BraceFree) (s : List Char) :
    ofList ((ofList s).fill ctx) = (ofList s).resolve ctx := by
  rw [← toList_resolve, ((isReading_ofList s).resolve h).ofList_toList]

@[simp] theorem fill_empty (t : Template) : t.fill .empty = t.toList := rfl

theorem fill_ne_nil {t : Template} (h : t.toList ≠ [])
    (hctx : ∀ name v, ctx.value? name = some v → v ≠ "") : t.fill ctx ≠ [] := by
  obtain ⟨lead, slots⟩ := t
  cases slots with
  | nil => exact h
  | cons s slots =>
    have hfilling : filling ctx s.name ≠ [] := by
      cases hv : ctx.value? (String.ofList s.name) with
      | some v =>
        rw [filling_of_value hv]
        exact mt String.toList_eq_nil_iff.1 (hctx _ v hv)
      | none =>
        rw [filling_of_no_value hv]
        exact List.cons_ne_nil _ _
    rw [fill_cons]
    simp [hfilling]

theorem fill_congr {t : Template} (h : ∀ name ∈ t.names, a.value? name = b.value? name) :
    t.fill a = t.fill b := by
  have hslots : ∀ s ∈ t.slots,
      filling a s.name ++ s.trail = filling b s.name ++ s.trail := by
    intro s hs
    rw [filling, filling, h _ (List.mem_map.2 ⟨s, hs, rfl⟩)]
  rw [fill, fill, List.flatMap_congr hslots]

end Template

namespace Context

open Template

variable {a b : Context}

theorem substitute_congr {s : String} (h : ∀ name ∈ placeholders s, a.value? name = b.value? name) :
    a.substitute s = b.substitute s := by
  rw [substitute, substitute, fill_congr h]

theorem placeholders_substitute {ctx : Context} (h : ctx.BraceFree) (s : String) :
    placeholders (ctx.substitute s) =
      (placeholders s).filter fun name => (ctx.value? name).isNone := by
  rw [placeholders, substitute, String.toList_ofList, ofList_fill h, names_resolve, placeholders]

@[simp] theorem substitute_empty (s : String) : empty.substitute s = s := by
  rw [substitute, fill_empty, toList_ofList, String.ofList_toList]

theorem substitute_of_no_value {ctx : Context} {s : String}
    (h : ∀ name ∈ placeholders s, ctx.value? name = none) : ctx.substitute s = s := by
  have hempty : ctx.substitute s = empty.substitute s := substitute_congr h
  rw [hempty, substitute_empty]

theorem substitute_again {ctx : Context} (h : ctx.BraceFree) (s : String) :
    ctx.substitute (ctx.substitute s) = ctx.substitute s := by
  refine substitute_of_no_value fun name hname => ?_
  rw [placeholders_substitute h, List.mem_filter] at hname
  exact Option.isNone_iff_eq_none.1 hname.2

theorem substitute_ne_empty {ctx : Context} (h : ∀ name v, ctx.value? name = some v → v ≠ "")
    {s : String} (hs : s ≠ "") : ctx.substitute s ≠ "" := by
  have hlist : (ofList s.toList).toList ≠ [] := by
    rw [toList_ofList]
    exact mt String.toList_eq_nil_iff.1 hs
  exact mt String.ofList_eq_empty_iff.1 (fill_ne_nil hlist h)

/-- Two substitutions are one with the values of both. -/
theorem substitute_substitute (h : a.BraceFree) (s : String) :
    b.substitute (a.substitute s) = (a.union b).substitute s := by
  rw [substitute, substitute, String.toList_ofList, ofList_fill h, fill_resolve, substitute]

/-- Substitution takes away the placeholders that have a value and no others, if no value holds an
opening brace, and then there is nothing left for a second substitution. -/
theorem substitute_resolves {ctx : Context} (h : ctx.BraceFree) (s : String) :
    placeholders (ctx.substitute s) =
        (placeholders s).filter (fun name => (ctx.value? name).isNone) ∧
      ctx.substitute (ctx.substitute s) = ctx.substitute s := by
  refine ⟨placeholders_substitute h s, ?_⟩
  rw [substitute_substitute h]
  refine substitute_congr fun name _ => ?_
  rw [value?_union, Option.or_self]

def closeGapStamp : Context :=
  ((empty.define "stamp" "2023-03-24_100500").define "gap" "").define "close" "\x7d"

theorem braceFree_closeGapStamp : closeGapStamp.BraceFree :=
  ((braceFree_empty.define (by decide +kernel)).define (by decide +kernel)).define
    (by decide +kernel)

def mixedBraces : String :=
  "\x7b\x7d\x7bclose\x7d\x7bgap\x7d\x7bstamp\x7d\x7ba\x7bb\x7d\x7b"

theorem substitute_resolves_mixedBraces :
    closeGapStamp.BraceFree ∧
      closeGapStamp.substitute mixedBraces = "\x7b\x7d\x7d2023-03-24_100500\x7ba\x7bb\x7d\x7b" ∧
      placeholders "\x7b\x7d\x7d2023-03-24_100500\x7ba\x7bb\x7d\x7b" = ["a\x7bb"] ∧
      closeGapStamp.substitute "\x7b\x7d\x7d2023-03-24_100500\x7ba\x7bb\x7d\x7b" =
        "\x7b\x7d\x7d2023-03-24_100500\x7ba\x7bb\x7d\x7b" := by
  have hfirst : closeGapStamp.substitute mixedBraces =
      "\x7b\x7d\x7d2023-03-24_100500\x7ba\x7bb\x7d\x7b" := by decide +kernel
  have hleft : ((placeholders mixedBraces).filter fun name =>
      (closeGapStamp.value? name).isNone) = ["a\x7bb"] := by decide +kernel
  obtain ⟨hnames, hsecond⟩ := substitute_resolves braceFree_closeGapStamp mixedBraces
  rw [hleft, hfirst] at hnames
  rw [hfirst] at hsecond
  exact ⟨braceFree_closeGapStamp, hfirst, hnames, hsecond⟩

/-- No name has a value in both contexts. -/
def Apart (a b : Context) : Prop := ∀ name, a.value? name = none ∨ b.value? name = none

theorem apart_empty (a : Context) : a.Apart empty := fun name => .inr (value?_empty name)

theorem Apart.define (h : a.Apart b) {k : String} (hk : a.value? k = none) (v : String) :
    a.Apart (b.define k v) := by
  intro name
  rw [value?_define]
  by_cases hname : name = k
  · exact .inl (hname ▸ hk)
  · rw [if_neg hname]
    exact h name

theorem Apart.value?_union_comm (h : a.Apart b) (name : String) :
    (a.union b).value? name = (b.union a).value? name := by
  rw [value?_union, value?_union]
  rcases h name with ha | hb
  · rw [ha, Option.none_or, Option.or_none]
  · rw [hb, Option.none_or, Option.or_none]

/-- Values of two contexts that are apart and hold no opening brace can be put in one context after
the other, in either order, and the text is that which both together give. -/
theorem substitute_in_stages (h : a.Apart b) (ha : a.BraceFree) (hb : b.BraceFree) (s : String) :
    b.substitute (a.substitute s) = (a.union b).substitute s ∧
      a.substitute (b.substitute s) = (a.union b).substitute s := by
  refine ⟨substitute_substitute ha s, ?_⟩
  rw [substitute_substitute hb]
  exact substitute_congr fun name _ => (h.value?_union_comm name).symm

theorem substitute_in_stages_mixedBraces :
    closeGapStamp.Apart (empty.define "a\x7bb" "/mnt\x7d") ∧
      (empty.define "a\x7bb" "/mnt\x7d").substitute (closeGapStamp.substitute mixedBraces) =
        "\x7b\x7d\x7d2023-03-24_100500/mnt\x7d\x7b" ∧
      closeGapStamp.substitute ((empty.define "a\x7bb" "/mnt\x7d").substitute mixedBraces) =
        "\x7b\x7d\x7d2023-03-24_100500/mnt\x7d\x7b" := by
  have hboth : (closeGapStamp.union (empty.define "a\x7bb" "/mnt\x7d")).substitute mixedBraces =
      "\x7b\x7d\x7d2023-03-24_100500/mnt\x7d\x7b" := by decide +kernel
  have hapart : closeGapStamp.Apart (empty.define "a\x7bb" "/mnt\x7d") :=
    (apart_empty _).define (by decide +kernel) _
  have hmount : (empty.define "a\x7bb" "/mnt\x7d").BraceFree :=
    braceFree_empty.define (by decide +kernel)
  have h := substitute_in_stages hapart braceFree_closeGapStamp hmount mixedBraces
  rw [hboth] at h
  exact ⟨hapart, h⟩

end Context
end RenderFarm

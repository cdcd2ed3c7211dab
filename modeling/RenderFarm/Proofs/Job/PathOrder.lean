import RenderFarm.Proofs.Job.Outcome
import RenderFarm.Proofs.Template.Staging
import RenderFarm.Proofs.Time.Chronology

/-! The order of output paths. A template that names the creation time is filled with stamps of one
width, so that the first place where a stamp stands decides between two paths: they are ordered as
the stamps are, and so as the times of creation, and they are equal only within one second. -/
namespace RenderFarm

namespace Template

variable {ctx : Context} {k v w : String}

theorem filling_define_self {name : List Char} (h : String.ofList name = k) (ctx : Context)
    (v : String) : filling (ctx.define k v) name = v.toList := by
  rw [filling_of_value]
  rw [Context.value?_define, if_pos h]

theorem filling_define_of_ne {name : List Char} (h : String.ofList name ≠ k) (ctx : Context)
    (v : String) : filling (ctx.define k v) name = filling ctx name := by
  rw [filling, filling, Context.value?_define, if_neg h]

/-- A measure that adds up over texts is the same for two fillings if it is for the two values. -/
theorem measure_fill_define (size : List Char → Nat)
    (hadd : ∀ s t, size (s ++ t) = size s + size t) (ctx : Context)
    (hsize : size v.toList = size w.toList) (t : Template) :
    size (t.fill (ctx.define k v)) = size (t.fill (ctx.define k w)) := by
  obtain ⟨lead, slots⟩ := t
  induction slots generalizing lead with
  | nil => rfl
  | cons s slots ih =>
    have hfilling : size (filling (ctx.define k v) s.name) =
        size (filling (ctx.define k w) s.name) := by
      by_cases hname : String.ofList s.name = k
      · rw [filling_define_self hname, filling_define_self hname, hsize]
      · rw [filling_define_of_ne hname, filling_define_of_ne hname]
    rw [fill_cons, fill_cons, hadd, hadd, hadd, hadd, hfilling, ih]

/-- Texts that are filled with two values of one length for the same name are ordered as the values
are. -/
theorem fill_define_lt_iff (ctx : Context) (hlength : v.toList.length = w.toList.length)
    {t : Template} (hk : k ∈ t.names) :
    t.fill (ctx.define k v) < t.fill (ctx.define k w) ↔ v < w := by
  obtain ⟨lead, slots⟩ := t
  induction slots generalizing lead with
  | nil => cases hk
  | cons s slots ih =>
    rw [fill_cons, fill_cons, List.append_assoc, List.append_assoc, Text.append_lt_append_left_iff]
    by_cases hname : String.ofList s.name = k
    · rw [filling_define_self hname, filling_define_self hname, Text.append_lt_append_iff hlength,
        String.lt_iff, or_iff_left]
      rintro ⟨hsame, hrest⟩
      rw [String.toList_inj.1 hsame] at hrest
      exact List.lt_irrefl _ hrest
    · have hrest : k ∈ (⟨s.trail, slots⟩ : Template).names :=
        (List.mem_cons.1 hk).resolve_left (Ne.symm hname)
      rw [filling_define_of_ne hname, filling_define_of_ne hname, Text.append_lt_append_left_iff,
        ih s.trail hrest]

end Template

namespace Job

open JobSettings

variable {ahead : Int} {template : String} {a b : Job}

theorem ne_empty_of_mem_placeholders {name : String} (h : name ∈ placeholders template) :
    template ≠ "" := by
  rintro rfl
  simp [placeholders, Template.ofList, Template.names] at h

theorem toList_substituted (zone : Zone) (job : Job) (template : String) :
    (job.substituted zone template).toList =
      (Template.ofList template.toList).fill
        (Context.empty.define timestampName (job.created.stamp zone)) :=
  String.toList_ofList

theorem size_substituted (zone : Zone)
    (hlength : (a.created.stamp zone).toList.length = (b.created.stamp zone).toList.length)
    (template : String) :
    (a.substituted zone template).length = (b.substituted zone template).length ∧
      (a.substituted zone template).utf8ByteSize = (b.substituted zone template).utf8ByteSize := by
  constructor
  · rw [← String.length_toList, ← String.length_toList, toList_substituted, toList_substituted]
    exact Template.measure_fill_define List.length (fun _ _ => List.length_append) .empty hlength _
  · have hbytes : (String.ofList (a.created.stamp zone).toList).utf8ByteSize =
        (String.ofList (b.created.stamp zone).toList).utf8ByteSize := by
      rw [String.ofList_toList, String.ofList_toList, Instant.utf8ByteSize_stamp,
        Instant.utf8ByteSize_stamp, hlength]
    have hadd : ∀ s t : List Char, (String.ofList (s ++ t)).utf8ByteSize =
        (String.ofList s).utf8ByteSize + (String.ofList t).utf8ByteSize := by
      intro s t
      rw [String.ofList_append, String.utf8ByteSize_append]
    exact Template.measure_fill_define (fun s => (String.ofList s).utf8ByteSize) hadd .empty hbytes
      _

theorem substituted_lt_iff {zone : Zone}
    (hlength : (a.created.stamp zone).toList.length = (b.created.stamp zone).toList.length)
    (htime : timestampName ∈ placeholders template) :
    a.substituted zone template < b.substituted zone template ↔
      a.created.stamp zone < b.created.stamp zone := by
  rw [String.lt_iff, toList_substituted, toList_substituted]
  exact Template.fill_define_lt_iff .empty hlength htime

theorem substituted_inj {zone : Zone}
    (hlength : (a.created.stamp zone).toList.length = (b.created.stamp zone).toList.length)
    (htime : timestampName ∈ placeholders template) :
    a.substituted zone template = b.substituted zone template ↔
      a.created.stamp zone = b.created.stamp zone := by
  constructor
  · intro h
    have hless := substituted_lt_iff hlength htime
    have hgreater := substituted_lt_iff hlength.symm htime
    rw [h, iff_false_left (String.lt_irrefl _)] at hless hgreater
    exact String.le_antisymm (String.not_lt.1 hgreater) (String.not_lt.1 hless)
  · intro h
    rw [substituted, h, substituted]

def fiveFramesAt (created : Instant) : Job :=
  { fiveFrames "/jobs/shotA/scene.blend" with created }

def leapSecond2016 : Instant := ⟨1483228799, 1500000000, by decide, by decide⟩

def newYear2017 : Instant := .ofSeconds 1483228800

end Job
end RenderFarm

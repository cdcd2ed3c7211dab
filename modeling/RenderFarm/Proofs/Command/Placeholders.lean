import Mathlib.Data.List.Induction
import Mathlib.Data.List.Nodup
import RenderFarm.Proofs.Template.Staging
import RenderFarm.Task

/-! What a worker has to know of a command. The listed names are those of the placeholders on the
command line, each once and in the order of their first use. They are all that counts: values for
other names change nothing, values for all of them leave nothing open, and none of them can be left
out, because a value for it changes the command line. -/
namespace RenderFarm

namespace Template

theorem names_ofList_of_not_mem {s : List Char} (h : '\x7b' ∉ s) : (ofList s).names = [] := by
  rw [ofList_of_atBraces (atBraces_of_not_mem h)]
  rfl

/-- The first placeholder of a text is the one at its first opening brace, if there is a name. -/
theorem names_ofList_append_placeholder {lead name : List Char} (hl : '\x7b' ∉ lead)
    (hne : name ≠ []) (hn : '\x7d' ∉ name) (rest : List Char) :
    (ofList (lead ++ (placeholderText name ++ rest))).names =
      String.ofList name :: (ofList rest).names := by
  rw [ofList_append_placeholder (atBraces_of_not_mem hl) hne hn]
  rfl

end Template

theorem placeholders_of_not_mem {s : String} (h : '\x7b' ∉ s.toList) : placeholders s = [] :=
  Template.names_ofList_of_not_mem h

@[simp] theorem placeholders_empty : placeholders "" = [] := placeholders_of_not_mem (by simp)

namespace Context

def only (names : List String) (ctx : Context) : Context :=
  ⟨ctx.values.filter fun p => p.1 ∈ names⟩

theorem value?_only (names : List String) (ctx : Context) (name : String) :
    (ctx.only names).value? name = if name ∈ names then ctx.value? name else none := by
  obtain ⟨values⟩ := ctx
  simp only [only, value?]
  induction values with
  | nil => simp
  | cons p values ih =>
    obtain ⟨k, v⟩ := p
    by_cases hname : name = k
    · subst hname
      by_cases hk : name ∈ names
      · simp [hk]
      · simp [hk, ih]
    · have hother : (name == k) = false := beq_eq_false_iff_ne.2 hname
      by_cases hk : k ∈ names
      · simp [hk, List.lookup_cons, hother, ih]
      · simp [hk, List.lookup_cons, hother, ih]

theorem substitute_define_empty_ne {name s : String} (h : name ∈ placeholders s) :
    (empty.define name "").substitute s ≠ s := by
  intro hsame
  have hfree : (empty.define name "").BraceFree := braceFree_empty.define (by simp)
  have hleft := placeholders_substitute hfree s
  rw [hsame] at hleft
  rw [hleft, List.mem_filter, value?_define, if_pos rfl] at h
  cases h.2

end Context

namespace Command

/-- A name put to the end of a list, unless the list has it. -/
def addNew (names : List String) (name : String) : List String :=
  if name ∈ names then names else names ++ [name]

theorem eraseDups_concat (l : List String) (a : String) :
    (l ++ [a]).eraseDups = addNew l.eraseDups a := by
  rw [List.eraseDups_append, addNew]
  by_cases h : a ∈ l <;> simp [h, List.removeAll, List.eraseDups_cons]

theorem eraseDups_eq_foldl (l : List String) : l.eraseDups = l.foldl addNew [] := by
  induction l using List.reverseRecOn with
  | nil => rfl
  | append_singleton l a ih => rw [eraseDups_concat, ih, List.foldl_concat]

theorem nodup_eraseDups (l : List String) : l.eraseDups.Nodup := by
  induction l using List.reverseRecOn with
  | nil => simp
  | append_singleton l a ih =>
    rw [eraseDups_concat, addNew]
    split
    · exact ih
    · rename_i hnew
      simpa [List.nodup_append, ih] using fun b hb => ne_of_mem_of_not_mem hb hnew

/-- The names are listed by going through the command line once. -/
theorem placeholders_eq_foldl (c : Command) :
    c.placeholders = c.commandLine.foldl
      (fun names part => (RenderFarm.placeholders part).foldl addNew names) [] := by
  rw [placeholders, eraseDups_eq_foldl, List.foldl_flatMap]

def parts (c : Command) : List String := c.exe :: c.exeArgs :: c.argsBefore ++ c.blendfile :: c.args

theorem commandLine_eq_filter_parts (c : Command) : c.commandLine = c.parts.filter (· != "") := rfl

/-- The parts that are left out of the command line hold no placeholder. -/
theorem placeholders_eq_eraseDups_parts (c : Command) :
    c.placeholders = (c.parts.flatMap RenderFarm.placeholders).eraseDups := by
  rw [placeholders, commandLine_eq_filter_parts]
  congr 1
  induction c.parts with
  | nil => rfl
  | cons part parts ih =>
    by_cases hpart : part = ""
    · simp [hpart, ih]
    · simp [hpart, ih]

variable {c : Command} {name : String}

theorem mem_placeholders_iff :
    name ∈ c.placeholders ↔ ∃ part ∈ c.commandLine, name ∈ RenderFarm.placeholders part := by
  rw [placeholders, List.mem_eraseDups, List.mem_flatMap]

theorem substitute_congr {a b : Context} (h : ∀ name ∈ c.placeholders, a.value? name = b.value? name)
    {part : String} (hpart : part ∈ c.commandLine) : a.substitute part = b.substitute part :=
  Context.substitute_congr fun name hname => h name (mem_placeholders_iff.2 ⟨part, hpart, hname⟩)

/-- Values for the listed names leave nothing open if they hold no opening brace, whatever values
other names have. -/
theorem placeholders_substitute_eq_nil {ctx : Context}
    (h : ∀ name ∈ c.placeholders, ∃ v, ctx.value? name = some v ∧ '\x7b' ∉ v.toList)
    {part : String} (hpart : part ∈ c.commandLine) :
    RenderFarm.placeholders (ctx.substitute part) = [] := by
  have hsame : ctx.substitute part = (ctx.only c.placeholders).substitute part := by
    refine substitute_congr (fun name hname => ?_) hpart
    rw [Context.value?_only, if_pos hname]
  have hfree : (ctx.only c.placeholders).BraceFree := by
    intro name v hv
    rw [Context.value?_only] at hv
    split at hv
    · rename_i hname
      obtain ⟨w, hw, hbrace⟩ := h name hname
      rw [hw] at hv
      cases hv
      exact hbrace
    · cases hv
  rw [hsame, Context.placeholders_substitute hfree, List.filter_eq_nil_iff]
  intro name hname
  have hlisted : name ∈ c.placeholders := mem_placeholders_iff.2 ⟨part, hpart, hname⟩
  obtain ⟨w, hw, -⟩ := h name hlisted
  simp [Context.value?_only, hlisted, hw]

/-- The list of placeholders has what a worker needs and nothing else. No name comes twice, contexts
that agree on the names give the same command line, values for all of them that hold no opening brace
leave no placeholder in it, and a value for just one of them changes it, even the empty text. -/
theorem placeholders_adequate (c : Command) :
    c.placeholders.Nodup ∧
      (∀ a b : Context, (∀ name ∈ c.placeholders, a.value? name = b.value? name) →
        c.commandLine.map a.substitute = c.commandLine.map b.substitute) ∧
      (∀ ctx : Context,
        (∀ name ∈ c.placeholders, ∃ v, ctx.value? name = some v ∧ '\x7b' ∉ v.toList) →
        ∀ part ∈ c.commandLine, RenderFarm.placeholders (ctx.substitute part) = []) ∧
      ∀ name ∈ c.placeholders, ∃ part ∈ c.commandLine,
        (Context.empty.define name "").substitute part ≠ part := by
  refine ⟨nodup_eraseDups _, ?_, ?_, ?_⟩
  · intro a b h
    exact List.map_congr_left fun part hpart => substitute_congr h hpart
  · intro ctx h part hpart
    exact placeholders_substitute_eq_nil h hpart
  · intro name hname
    obtain ⟨part, hpart, hin⟩ := mem_placeholders_iff.1 hname
    exact ⟨part, hpart, Context.substitute_define_empty_ne hin⟩

def mixedCommand : Command :=
  { named "render" with
    exe := "\x7bstamp\x7d", args := [Context.mixedBraces, "", "\x7bgap\x7d/\x7bstamp\x7d"] }

def mixedValues : Context := Context.closeGapStamp.define "a\x7bb" "/mnt\x7d"

/-- A value for one more name may hold an opening brace, because the name is not listed. -/
theorem placeholders_adequate_mixedCommand :
    mixedCommand.placeholders = ["stamp", "close", "gap", "a\x7bb"] ∧
      mixedCommand.commandLine.map (mixedValues.define "exe" "\x7bgap\x7d").substitute =
        mixedCommand.commandLine.map mixedValues.substitute ∧
      (∀ part ∈ mixedCommand.commandLine,
        RenderFarm.placeholders ((mixedValues.define "exe" "\x7bgap\x7d").substitute part) = []) ∧
      ∃ part ∈ mixedCommand.commandLine,
        (Context.empty.define "a\x7bb" "").substitute part ≠ part := by
  have hnames : mixedCommand.placeholders = ["stamp", "close", "gap", "a\x7bb"] := by
    decide +kernel
  obtain ⟨-, hsame, hresolved, hneeded⟩ := placeholders_adequate mixedCommand
  rw [hnames] at hsame hresolved hneeded
  refine ⟨hnames, hsame _ _ ?_, hresolved _ ?_, hneeded _ (by simp)⟩
  · intro name hname
    rw [Context.value?_define, if_neg]
    rintro rfl
    simp at hname
  · simp only [List.forall_mem_cons]
    exact ⟨⟨"2023-03-24_100500", by decide +kernel, by decide +kernel⟩,
      ⟨"\x7d", by decide +kernel, by decide +kernel⟩, ⟨"", by decide +kernel, by decide +kernel⟩,
      ⟨"/mnt\x7d", by decide +kernel, by decide +kernel⟩, by simp⟩

end Command
end RenderFarm

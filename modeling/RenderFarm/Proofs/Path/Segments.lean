import Mathlib.Data.List.Basic
import RenderFarm.Path

/-! Segments of paths. Separators cut a path, and the text on both sides keeps its segments; the
staged names of a file are the last two of them. -/
namespace RenderFarm
namespace Path

theorem parentAndFile?_eq_none_iff {p : String} :
    parentAndFile? p = none ↔ (segments p).length < 2 := by
  unfold parentAndFile?
  rw [← List.length_reverse]
  split
  · rename_i file parent rest h
    simp [h]
  · rename_i h
    match hs : (segments p).reverse with
    | [] => simp
    | [_] => simp
    | file :: parent :: rest => exact absurd hs (h file parent rest)

theorem parentAndFile?_eq_some_iff {p parent file : String} :
    parentAndFile? p = some (parent, file) ↔ [parent, file] <:+ segments p := by
  rw [← List.reverse_prefix]
  unfold parentAndFile?
  split
  · rename_i last before rest h
    rw [h]
    simp [eq_comm, and_comm]
  · rename_i h
    constructor
    · intro hnone
      cases hnone
    · rintro ⟨rest, hrest⟩
      exact absurd hrest.symm (h file parent rest)

theorem basename_of_segments {p file : String} {dirs : List String}
    (h : segments p = dirs ++ [file]) : basename p = file := by
  rw [basename, h, List.getLast?_concat, Option.getD_some]

theorem basename_of_suffix {p dir name : String} (h : [dir, name] <:+ segments p) :
    basename p = name := by
  obtain ⟨rest, hrest⟩ := h
  have hsegments : segments p = rest ++ [dir] ++ [name] := by rw [← hrest, List.append_cons]
  exact basename_of_segments hsegments

theorem segments_ofList_append_cons {c : Char} (h : isSeparator c = true) (s t : List Char) :
    segments (String.ofList (s ++ c :: t)) =
      segments (String.ofList s) ++ segments (String.ofList t) := by
  simp only [segments, String.toList_ofList, Text.pieces_append_cons isSeparator s t h,
    List.map_append]

theorem segments_ofList_of_forall_not {s : List Char} (h : ∀ c ∈ s, isSeparator c = false)
    (hs : s ≠ []) : segments (String.ofList s) = [String.ofList s] := by
  simp only [segments, String.toList_ofList, Text.pieces_of_forall_not isSeparator h hs,
    List.map_cons, List.map_nil]

/-- A new segment can start at the end of the text. -/
def IsOpening (s : List Char) : Prop := ∀ c ∈ s.getLast?, isSeparator c = true

theorem isOpening_concat {s : List Char} {c : Char} :
    IsOpening (s ++ [c]) ↔ isSeparator c = true := by
  simp [IsOpening]

theorem isOpening_append_cons {s t : List Char} {c : Char} :
    IsOpening (s ++ c :: t) ↔ IsOpening (c :: t) := by
  simp [IsOpening]

theorem segments_ofList_append_of_isOpening {s : List Char} (h : IsOpening s) (t : List Char) :
    segments (String.ofList (s ++ t)) =
      segments (String.ofList s) ++ segments (String.ofList t) := by
  obtain rfl | ⟨u, c, rfl⟩ := List.eq_nil_or_concat' s
  · simp [segments]
  · have hc := isOpening_concat.1 h
    have hnil : segments (String.ofList []) = [] := by simp [segments]
    rw [segments_ofList_append_cons hc u [], hnil, List.append_nil, List.append_assoc,
      List.singleton_append, segments_ofList_append_cons hc]

theorem isOpening_toList_iff {p : String} :
    IsOpening p.toList ↔ p = "" ∨ endsWithSeparator p = true := by
  unfold IsOpening endsWithSeparator
  cases hl : p.toList.getLast? with
  | none => simpa using hl
  | some c =>
    have hp : p ≠ "" := by
      rintro rfl
      simp at hl
    simp [hp]

def opening (p : String) : List Char :=
  if p = "" ∨ endsWithSeparator p then p.toList else p.toList ++ ['/']

theorem isOpening_opening (p : String) : IsOpening (opening p) := by
  unfold opening
  split
  · rename_i h
    exact isOpening_toList_iff.2 h
  · exact isOpening_concat.2 rfl

theorem opening_of_isOpening {p : String} (h : IsOpening p.toList) : opening p = p.toList := by
  rw [opening, if_pos (isOpening_toList_iff.1 h)]

theorem opening_of_not_isOpening {p : String} (h : ¬IsOpening p.toList) :
    opening p = p.toList ++ ['/'] := by
  rw [opening, if_neg (mt isOpening_toList_iff.2 h)]

theorem toList_append {part : String} (h : part ≠ "") (p : String) :
    (append p part).toList = opening p ++ part.toList := by
  unfold append opening
  rw [if_neg h]
  split
  · exact String.toList_append
  · simp

theorem exists_toList_append {mark : Char} (hmark : mark ≠ '/') {part : String}
    (h : mark ∉ part.toList) (p : String) :
    ∃ rest, (append p part).toList = p.toList ++ rest ∧ mark ∉ rest := by
  by_cases hpart : part = ""
  · exact ⟨[], by simp [append, hpart], by simp⟩
  · rw [toList_append hpart, opening]
    split
    · exact ⟨part.toList, rfl, h⟩
    · exact ⟨'/' :: part.toList, by simp, by simp [hmark, h]⟩

theorem exists_toList_foldl_append {mark : Char} (hmark : mark ≠ '/') {parts : List String}
    (h : ∀ part ∈ parts, mark ∉ part.toList) (p : String) :
    ∃ rest, (parts.foldl append p).toList = p.toList ++ rest ∧ mark ∉ rest := by
  induction parts generalizing p with
  | nil => exact ⟨[], by simp, by simp⟩
  | cons part parts ih =>
    obtain ⟨hpart, hparts⟩ := List.forall_mem_cons.1 h
    obtain ⟨first, hfirst, hfree⟩ := exists_toList_append hmark hpart p
    obtain ⟨rest, hrest, hfree'⟩ := ih hparts (append p part)
    refine ⟨first ++ rest, ?_, by simp [hfree, hfree']⟩
    rw [List.foldl_cons, hrest, hfirst, List.append_assoc]

theorem join_append (parts others : List String) :
    join (parts ++ others) = others.foldl append (join parts) :=
  List.foldl_append

theorem join_concat (parts : List String) (part : String) :
    join (parts ++ [part]) = append (join parts) part := by
  simp [join]

end Path
end RenderFarm

import Mathlib.Data.List.TakeWhile
import RenderFarm.Proofs.Path.Joining

/-! The parts of one path. A path is cut into segments at every separator, and its directory ends at
the last one; either way the same names come out. The base name and the directory names make up the
segments, the staged names are the last of both, and what precedes the last separator has the
segments of the path without those that follow it. -/
namespace RenderFarm
namespace Path

theorem exists_last_separator (s : List Char) :
    (∀ c ∈ s, isSeparator c = false) ∨
      ∃ before c after, s = before ++ c :: after ∧ isSeparator c = true ∧
        ∀ d ∈ after, isSeparator d = false := by
  induction s with
  | nil => exact .inl (by simp)
  | cons c s ih =>
    rcases ih with hnone | ⟨before, d, after, rfl, hd, hafter⟩
    · cases hc : isSeparator c with
      | false => exact .inl (List.forall_mem_cons.2 ⟨hc, hnone⟩)
      | true => exact .inr ⟨[], c, s, rfl, hc, hnone⟩
    · exact .inr ⟨c :: before, d, after, rfl, hd, hafter⟩

variable {p : String} {before after : List Char} {c : Char}

theorem dirname_of_forall_not (h : ∀ c ∈ p.toList, isSeparator c = false) : dirname p = "" := by
  have hnil : p.toList.reverse.dropWhile (!isSeparator ·) = [] :=
    List.dropWhile_eq_nil_iff.2 (by simpa using h)
  rw [dirname, hnil]

/-- The directory is what precedes the last separator, or that separator where nothing does. -/
theorem dirname_of_last_separator (hp : p.toList = before ++ c :: after)
    (hc : isSeparator c = true) (hafter : ∀ d ∈ after, isSeparator d = false) :
    dirname p = if before = [] then String.ofList [c] else String.ofList before := by
  have hdrop : p.toList.reverse.dropWhile (!isSeparator ·) = c :: before.reverse := by
    rw [hp, List.reverse_append, List.reverse_cons, List.append_assoc,
      List.dropWhile_append_of_pos (by simpa using hafter)]
    simp [hc]
  rw [dirname, hdrop]
  obtain rfl | ⟨rest, d, rfl⟩ := List.eq_nil_or_concat' before
  · rfl
  · simp

theorem segments_dirname_of_last_separator (hp : p.toList = before ++ c :: after)
    (hc : isSeparator c = true) (hafter : ∀ d ∈ after, isSeparator d = false) :
    segments (dirname p) = segments (String.ofList before) := by
  rw [dirname_of_last_separator hp hc hafter]
  split
  · rename_i hbefore
    have hnil : segments (String.ofList []) = [] := by simp [segments]
    rw [hbefore, ← List.nil_append [c], segments_ofList_append_cons hc, hnil, List.append_nil]
  · rfl

theorem endsWithSeparator_of_forall_not (h : ∀ c ∈ p.toList, isSeparator c = false) :
    endsWithSeparator p = false := by
  rw [endsWithSeparator]
  cases hlast : p.toList.getLast? with
  | none => rfl
  | some c => exact h c (List.mem_of_getLast? hlast)

theorem endsWithSeparator_iff_of_last_separator (hp : p.toList = before ++ c :: after)
    (hc : isSeparator c = true) (hafter : ∀ d ∈ after, isSeparator d = false) :
    endsWithSeparator p = true ↔ after = [] := by
  rw [endsWithSeparator, hp]
  obtain rfl | ⟨rest, d, rfl⟩ := List.eq_nil_or_concat' after
  · simp [hc]
  · have hd : isSeparator d = false := hafter d (by simp)
    rw [← List.cons_append, ← List.append_assoc, List.getLast?_concat]
    simp [hd]

theorem segments_dirname (p : String) :
    segments (dirname p) =
      if endsWithSeparator p then segments p else (segments p).dropLast := by
  have hempty : segments "" = [] := by simp [segments]
  rcases exists_last_separator p.toList with hnone | ⟨before, c, after, hp, hc, hafter⟩
  · rw [dirname_of_forall_not hnone, hempty, endsWithSeparator_of_forall_not hnone,
      if_neg Bool.false_ne_true]
    by_cases hnil : p.toList = []
    · rw [String.toList_eq_nil_iff.1 hnil, hempty, List.dropLast_nil]
    · rw [← String.ofList_toList (s := p), segments_ofList_of_forall_not hnone hnil]
      rfl
  · have hsegments : segments p =
        segments (String.ofList before) ++ segments (String.ofList after) := by
      rw [← segments_ofList_append_cons hc, ← hp, String.ofList_toList]
    have hends := endsWithSeparator_iff_of_last_separator hp hc hafter
    rw [segments_dirname_of_last_separator hp hc hafter, hsegments]
    by_cases hnil : after = []
    · have hnone : segments (String.ofList []) = [] := by simp [segments]
      rw [if_pos (hends.2 hnil), hnil, hnone, List.append_nil]
    · rw [if_neg (mt hends.1 hnil), segments_ofList_of_forall_not hafter hnil,
        List.dropLast_concat]

variable {dirs : List String} {parent file : String}

theorem directories_of_segments (h : segments p = dirs ++ [file]) : directories p = dirs := by
  rw [directories, h, List.dropLast_concat]

theorem lastDirectories_one_of_suffix (h : [parent, file] <:+ segments p) :
    lastDirectories 1 p = [parent] := by
  obtain ⟨rest, hrest⟩ := h
  have hsegments : segments p = rest ++ [parent] ++ [file] := by rw [← hrest, List.append_cons]
  simp [lastDirectories, directories_of_segments hsegments]

theorem isSome_parentAndFile?_iff : (parentAndFile? p).isSome ↔ 2 ≤ (segments p).length := by
  rw [← Option.ne_none_iff_isSome, Ne, parentAndFile?_eq_none_iff, Nat.not_lt]

/-- All that is asked of a path is told by its segments. The base name is the last of them, the
directory names are those before it, as many from their end as are asked for, and the staged names,
which a path with two segments has, are the last directory name and the base name. The directory has
all segments of a path that ends in a separator, and all but the base name of every other path. -/
theorem decomposed_by_segments (p : String) :
    (segments p = [] → basename p = "" ∧ ∀ n, lastDirectories n p = []) ∧
      (∀ dirs file, segments p = dirs ++ [file] → basename p = file ∧
        ∀ n, lastDirectories n p <:+ dirs ∧
          (lastDirectories n p).length = min n ((segments p).length - 1)) ∧
      ((parentAndFile? p).isSome ↔ 2 ≤ (segments p).length) ∧
      (∀ parent file, parentAndFile? p = some (parent, file) →
        lastDirectories 1 p = [parent] ∧ basename p = file) ∧
      (endsWithSeparator p = false → segments (dirname p) = (segments p).dropLast) ∧
      (endsWithSeparator p = true → segments (dirname p) = segments p) := by
  refine ⟨fun hnil => ?_, fun dirs file h => ?_, isSome_parentAndFile?_iff, fun parent file h => ?_,
    fun hends => ?_, fun hends => ?_⟩
  · simp [basename, lastDirectories, directories, hnil]
  · have hdirectories := directories_of_segments h
    refine ⟨basename_of_segments h, fun n => ?_⟩
    have hsuffix := lastDirectories_suffix n p
    rw [hdirectories] at hsuffix
    refine ⟨hsuffix, ?_⟩
    rw [length_lastDirectories, hdirectories, h, List.length_append, List.length_singleton,
      Nat.add_sub_cancel]
  · have hsuffix := parentAndFile?_eq_some_iff.1 h
    exact ⟨lastDirectories_one_of_suffix hsuffix, basename_of_suffix hsuffix⟩
  · rw [segments_dirname, hends, if_neg Bool.false_ne_true]
  · rw [segments_dirname, if_pos hends]

theorem decomposed_by_segments_mixedSeparators :
    segments "C:\\\\shots/010\\" = ["C:", "shots", "010"] ∧
      basename "C:\\\\shots/010\\" = "010" ∧
      lastDirectories 1 "C:\\\\shots/010\\" = ["shots"] ∧
      segments (dirname "C:\\\\shots/010\\") = ["C:", "shots", "010"] := by
  have hsegments : segments "C:\\\\shots/010\\" = ["C:", "shots"] ++ ["010"] := by decide +kernel
  have hstaged : parentAndFile? "C:\\\\shots/010\\" = some ("shots", "010") := by decide +kernel
  obtain ⟨-, hnames, -, hstaging, -, hends⟩ := decomposed_by_segments "C:\\\\shots/010\\"
  refine ⟨hsegments, (hnames _ _ hsegments).1, (hstaging _ _ hstaged).1, ?_⟩
  rw [hends (by decide +kernel), hsegments]
  rfl

end Path
end RenderFarm

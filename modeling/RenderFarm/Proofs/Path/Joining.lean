import RenderFarm.Proofs.Path.Segments

/-! Joined paths. However the parts start and end, and whether or not they are empty, the segments
of a joined path are those of its parts, one part after another; the path starts with the text of
its first part, and it is not empty if a part is not. Adding a part is associative, so that parts
can be joined in groups. -/
namespace RenderFarm
namespace Path

theorem segments_ofList_opening (p : String) :
    segments (String.ofList (opening p)) = segments p := by
  unfold opening
  split
  · rw [String.ofList_toList]
  · have hnil : segments (String.ofList []) = [] := by simp [segments]
    rw [segments_ofList_append_cons rfl, hnil, List.append_nil, String.ofList_toList]

/-- No segment is lost where a part is added, and none is fused with another. -/
@[simp] theorem segments_append (p part : String) :
    segments (append p part) = segments p ++ segments part := by
  by_cases hpart : part = ""
  · simp [append, hpart, segments]
  · rw [← String.ofList_toList (s := append p part), toList_append hpart,
      segments_ofList_append_of_isOpening (isOpening_opening p), segments_ofList_opening,
      String.ofList_toList]

theorem segments_foldl_append (parts : List String) (p : String) :
    segments (parts.foldl append p) = segments p ++ parts.flatMap segments := by
  induction parts generalizing p with
  | nil => simp
  | cons part parts ih =>
    rw [List.foldl_cons, ih, segments_append, List.flatMap_cons, List.append_assoc]

theorem segments_join (parts : List String) : segments (join parts) = parts.flatMap segments := by
  have hempty : segments "" = [] := by simp [segments]
  rw [join, segments_foldl_append, hempty, List.nil_append]

theorem toList_prefix_append (p part : String) : p.toList <+: (append p part).toList := by
  by_cases hpart : part = ""
  · simp [append, hpart]
  · rw [toList_append hpart, opening]
    split
    · exact List.prefix_append _ _
    · rw [List.append_assoc]
      exact List.prefix_append _ _

theorem toList_prefix_foldl_append (parts : List String) (p : String) :
    p.toList <+: (parts.foldl append p).toList := by
  induction parts generalizing p with
  | nil => exact List.prefix_refl _
  | cons part parts ih => exact (toList_prefix_append p part).trans (ih (append p part))

theorem append_empty_left (part : String) : append "" part = part := by
  by_cases hpart : part = "" <;> simp [append, hpart]

theorem append_empty_right (p : String) : append p "" = p := if_pos rfl

theorem toList_prefix_join_cons (part : String) (parts : List String) :
    part.toList <+: (join (part :: parts)).toList := by
  rw [join, List.foldl_cons, append_empty_left]
  exact toList_prefix_foldl_append parts part

theorem append_ne_empty {p part : String} (h : p ≠ "" ∨ part ≠ "") :
    append p part ≠ "" := by
  unfold append
  split
  · simp_all
  · split <;> simp_all

theorem foldl_append_ne_empty {p : String} (h : p ≠ "") (parts : List String) :
    parts.foldl append p ≠ "" := by
  induction parts generalizing p with
  | nil => exact h
  | cons part parts ih => exact ih (append_ne_empty (.inl h))

theorem join_ne_empty {parts : List String} (h : ∃ part ∈ parts, part ≠ "") :
    join parts ≠ "" := by
  obtain ⟨part, hmem, hne⟩ := h
  obtain ⟨before, after, rfl⟩ := List.append_of_mem hmem
  rw [join_append, List.foldl_cons]
  exact foldl_append_ne_empty (append_ne_empty (.inr hne)) after

/-- Whether a further part needs a separator before it turns on the part that was added last. -/
theorem opening_append {part : String} (h : part ≠ "") (p : String) :
    opening (append p part) = opening p ++ opening part := by
  have hne : part.toList ≠ [] := by simpa using h
  obtain ⟨c, rest, hpart⟩ := List.exists_cons_of_ne_nil hne
  have hlast : IsOpening (append p part).toList ↔ IsOpening part.toList := by
    rw [toList_append h, hpart, isOpening_append_cons]
  by_cases hopening : IsOpening part.toList
  · rw [opening_of_isOpening (hlast.2 hopening), opening_of_isOpening hopening, toList_append h]
  · rw [opening_of_not_isOpening (mt hlast.1 hopening), opening_of_not_isOpening hopening,
      toList_append h, List.append_assoc]

theorem append_assoc (p q r : String) : append (append p q) r = append p (append q r) := by
  by_cases hq : q = ""
  · rw [hq, append_empty_right, append_empty_left]
  by_cases hr : r = ""
  · rw [hr, append_empty_right, append_empty_right]
  have hqr : append q r ≠ "" := append_ne_empty (.inl hq)
  rw [← String.toList_inj, toList_append hr, opening_append hq, toList_append hqr,
    toList_append hr, List.append_assoc]

instance : Std.Associative append := ⟨append_assoc⟩

/-- Parts that are added one after another are added as the path that they make. -/
theorem foldl_append_eq (parts : List String) (p : String) :
    parts.foldl append p = append p (join parts) := by
  have hfold : parts.foldl append (append p "") = append p (parts.foldl append "") :=
    List.foldl_assoc
  rwa [append_empty_right] at hfold

theorem join_cons (part : String) (parts : List String) :
    join (part :: parts) = append part (join parts) := by
  rw [join, List.foldl_cons, append_empty_left, foldl_append_eq]

theorem join_flatten (groups : List (List String)) :
    join groups.flatten = join (groups.map join) := by
  induction groups with
  | nil => rfl
  | cons parts groups ih =>
    calc join (parts :: groups).flatten
        = append (join parts) (join groups.flatten) := by
          rw [List.flatten_cons, join_append, foldl_append_eq]
      _ = append (join parts) (join (groups.map join)) := by rw [ih]
      _ = join ((parts :: groups).map join) := by rw [List.map_cons, join_cons]

/-- A joined path has the segments of its parts, one part after another, and parts that are joined
in groups first make the same path. -/
theorem join_compositional :
    (∀ parts, segments (join parts) = parts.flatMap segments) ∧
      ∀ groups : List (List String), join (groups.map join) = join groups.flatten :=
  ⟨segments_join, fun groups => (join_flatten groups).symm⟩

variable {p s : String}

theorem ne_empty_of_mem_segments (h : s ∈ segments p) : s ≠ "" := by
  obtain ⟨piece, hpiece, rfl⟩ := List.mem_map.1 h
  simpa using Text.ne_nil_of_mem_pieces hpiece

theorem segments_of_mem_segments (h : s ∈ segments p) : segments s = [s] := by
  obtain ⟨piece, hpiece, rfl⟩ := List.mem_map.1 h
  exact segments_ofList_of_forall_not (Text.not_sep_of_mem_pieces hpiece)
    (Text.ne_nil_of_mem_pieces hpiece)

theorem flatMap_segments_of_subset {names : List String} (h : ∀ s ∈ names, s ∈ segments p) :
    names.flatMap segments = names := by
  induction names with
  | nil => rfl
  | cons s names ih =>
    obtain ⟨hs, hnames⟩ := List.forall_mem_cons.1 h
    rw [List.flatMap_cons, segments_of_mem_segments hs, ih hnames, List.singleton_append]

theorem lastDirectories_suffix (n : Nat) (p : String) : lastDirectories n p <:+ directories p :=
  List.drop_suffix _ _

@[simp] theorem length_lastDirectories (n : Nat) (p : String) :
    (lastDirectories n p).length = min n (directories p).length := by
  simp only [lastDirectories, List.length_drop]
  omega

theorem mem_segments_of_mem_lastDirectories {n : Nat} (h : s ∈ lastDirectories n p) :
    s ∈ segments p :=
  List.dropLast_subset _ ((lastDirectories_suffix n p).subset h)

/-- The base name stands for a missing last segment by the empty text, which no segment is. -/
theorem getLast?_segments (p : String) :
    (segments p).getLast? = if basename p = "" then none else some (basename p) := by
  unfold basename
  cases h : (segments p).getLast? with
  | none => rfl
  | some s =>
    have hs : s ≠ "" := ne_empty_of_mem_segments (List.mem_of_getLast? h)
    rw [Option.getD_some, if_neg hs]

end Path
end RenderFarm

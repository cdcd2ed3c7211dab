import Mathlib.Tactic.SplitIfs
import RenderFarm.Files.Directory

/-! What a write does to a directory of files. The file that its path leads to holds the text
afterwards; paths that lead elsewhere lead there as before, to the same texts. A new file makes no
directory, since what it lies in has been there. -/
namespace RenderFarm
namespace Directory

variable {d after : Directory} {path text : String} {names n : List String} {place p : Place}

section Put

theorem lookup_cons_of_ne {key : List String} (h : n ≠ key) (old : String)
    (l : List (List String × String)) : ((key, old) :: l).lookup n = l.lookup n := by
  rw [List.lookup_cons, beq_false_of_ne h]

theorem lookup_map_set (l : List (List String × String)) (names n : List String) (text : String) :
    (l.map fun f => if f.1 == names then (names, text) else f).lookup n =
      if n = names then (l.lookup n).map fun _ => text else l.lookup n := by
  induction l with
  | nil => simp
  | cons f l ih =>
    obtain ⟨key, old⟩ := f
    by_cases hn : n = key
    · subst hn
      by_cases hnames : n = names <;> simp [hnames]
    · by_cases hkey : key = names
      · subst hkey
        simp only [List.map_cons, beq_self_eq_true, if_true, lookup_cons_of_ne hn, ih]
      · simp only [List.map_cons, beq_false_of_ne hkey, Bool.false_eq_true, if_false,
          lookup_cons_of_ne hn, ih]

theorem files_put_of_isSome (h : (d.text? names).isSome) :
    (d.put names text).files = d.files.map fun f => if f.1 == names then (names, text) else f :=
  if_pos h

theorem files_put_of_not_isSome (h : ¬(d.text? names).isSome) :
    (d.put names text).files = d.files ++ [(names, text)] :=
  if_neg h

theorem text?_put (d : Directory) (names n : List String) (text : String) :
    (d.put names text).text? n = if n = names then some text else d.text? n := by
  by_cases hthere : (d.text? names).isSome
  · rw [text?, files_put_of_isSome hthere, lookup_map_set]
    by_cases hn : n = names
    · obtain ⟨old, hold⟩ := Option.isSome_iff_exists.1 hthere
      rw [text?] at hold
      rw [if_pos hn, if_pos hn, hn, hold, Option.map_some]
    · rw [if_neg hn, if_neg hn, text?]
  · rw [text?, files_put_of_not_isSome hthere, List.lookup_append]
    by_cases hn : n = names
    · have hnone : d.files.lookup names = none := Option.not_isSome_iff_eq_none.1 hthere
      rw [if_pos hn, hn, hnone, Option.none_or, List.lookup_cons_self]
    · rw [if_neg hn, lookup_cons_of_ne hn, List.lookup_nil, Option.or_none, text?]

theorem any_put (d : Directory) (names : List String) (text : String) (P : List String → Bool) :
    ((d.put names text).files.any fun f => P f.1) = ((d.files.any fun f => P f.1) || P names) := by
  by_cases hthere : (d.text? names).isSome
  · obtain ⟨old, hold⟩ := Option.isSome_iff_exists.1 hthere
    obtain ⟨before, rest, hfiles, -⟩ := List.lookup_eq_some_iff.1 hold
    have hkeys : ∀ f : List String × String,
        P (if f.1 == names then (names, text) else f).1 = P f.1 := by
      intro f
      by_cases hf : f.1 = names <;> simp [hf]
    have hmem : P names = true → (d.files.any fun f => P f.1) = true :=
      fun hp => List.any_eq_true.2 ⟨(names, old), by simp [hfiles], hp⟩
    simp only [files_put_of_isSome hthere, List.any_map, Function.comp_def, hkeys]
    cases hp : P names with
    | false => rw [Bool.or_false]
    | true => rw [hmem hp, Bool.or_true]
  · simp [files_put_of_not_isSome hthere]

theorem isDirectory_put (d : Directory) (names n : List String) (text : String) :
    (d.put names text).isDirectory n =
      (d.isDirectory n || (n.isPrefixOf names && decide (n.length < names.length))) := by
  rw [isDirectory, any_put d names text fun f => n.isPrefixOf f && decide (n.length < f.length),
    isDirectory, Bool.or_assoc]
  rfl

end Put

/-- The text of one file is set, and nothing else differs. -/
structure Sets (d : Directory) (names : List String) (text : String) (after : Directory) :
    Prop where
  place : after.place = d.place
  file : after.text? names = some text
  others : ∀ n, n ≠ names → after.text? n = d.text? n
  directories : ∀ n, after.isDirectory n = d.isDirectory n

theorem sets_put {dir : List String} (hdir : ∀ n, n <+: dir → d.isDirectory n = true)
    (name text : String) : d.Sets (dir ++ [name]) text (d.put (dir ++ [name]) text) where
  place := rfl
  file := by rw [text?_put, if_pos rfl]
  others n hn := by rw [text?_put, if_neg hn]
  directories n := by
    rw [isDirectory_put]
    cases hbefore : n.isPrefixOf (dir ++ [name]) && decide (n.length < (dir ++ [name]).length) with
    | false => rw [Bool.or_false]
    | true =>
      rw [Bool.and_eq_true, List.isPrefixOf_iff_prefix, decide_eq_true_iff] at hbefore
      obtain heq | hprefix := List.prefix_concat_iff.1 hbefore.1
      · exact absurd (congrArg List.length heq) (Nat.ne_of_lt hbefore.2)
      · rw [hdir n hprefix, Bool.or_true]

section Step

structure IsPlainName (name : String) : Prop where
  ne_here : name ≠ "."
  ne_above : name ≠ ".."
  size_le : name.utf8ByteSize ≤ maxNameSize

theorem step_of_isPlainName {name : String} (h : IsPlainName name) (d : Directory)
    (dir : List String) :
    d.step (.directory dir) name =
      if d.isDirectory (dir ++ [name]) then .ok (.directory (dir ++ [name]))
      else if (d.text? (dir ++ [name])).isSome then .ok (.file (dir ++ [name]))
      else .error .notFound := by
  rw [step, if_neg h.ne_here, if_neg h.ne_above, if_neg (Nat.not_lt.2 h.size_le)]

/-- All that a directory lies in is a directory as well. -/
def IsReached (d : Directory) : Place → Prop
  | .directory names => ∀ n, n <+: names → d.isDirectory n = true
  | .file _ => True

theorem isReached_step {name : String} (hplace : d.IsReached place)
    (h : d.step place name = .ok p) : d.IsReached p := by
  cases place with
  | file f => cases h
  | directory dir =>
    simp only [step] at h
    split_ifs at h with hhere habove hsize hdir hfile <;> cases h
    · exact hplace
    · exact fun n hn => hplace n (hn.trans (List.dropLast_prefix dir))
    · intro n hn
      obtain rfl | hprefix := List.prefix_concat_iff.1 hn
      · exact hdir
      · exact hplace n hprefix
    · trivial

theorem Sets.step_of_ok {name : String} (h : d.Sets names text after)
    (hstep : d.step place name = .ok p) : after.step place name = .ok p := by
  cases place with
  | file f => cases hstep
  | directory dir =>
    simp only [step, h.directories] at hstep ⊢
    by_cases hsame : dir ++ [name] = names
    · rw [hsame] at hstep ⊢
      rw [h.file, Option.isSome_some, if_pos rfl]
      split_ifs at hstep ⊢
      all_goals exact hstep
    · rwa [h.others _ hsame]

theorem Sets.step_cases {name : String} (h : d.Sets names text after)
    (hstep : after.step place name = .ok p) : d.step place name = .ok p ∨ p = .file names := by
  cases place with
  | file f => cases hstep
  | directory dir =>
    simp only [step, h.directories] at hstep ⊢
    by_cases hsame : dir ++ [name] = names
    · rw [hsame] at hstep ⊢
      split_ifs at hstep ⊢
      all_goals first | exact .inl hstep | exact .inr (Except.ok.inj hstep).symm
    · rw [h.others _ hsame] at hstep
      exact .inl hstep

end Step

section Walk

theorem foldlM_step_cons (d : Directory) (place : Place) (name : String) (rest : List String) :
    (name :: rest).foldlM d.step place = .ok p ↔
      ∃ q, d.step place name = .ok q ∧ rest.foldlM d.step q = .ok p := by
  rw [List.foldlM_cons]
  cases hstep : d.step place name with
  | error fault => simp [bind, Except.bind]
  | ok q => simp [bind, Except.bind]

theorem eq_of_foldlM_step_file {file : List String} (h : n.foldlM d.step (.file file) = .ok p) :
    p = .file file := by
  cases n with
  | nil => exact (Except.ok.inj h).symm
  | cons name rest =>
    obtain ⟨q, hq, -⟩ := (foldlM_step_cons d _ name rest).1 h
    cases hq

theorem isReached_foldlM_step (hplace : d.IsReached place) (h : n.foldlM d.step place = .ok p) :
    d.IsReached p := by
  induction n generalizing place with
  | nil => exact Except.ok.inj h ▸ hplace
  | cons name rest ih =>
    obtain ⟨q, hq, hrest⟩ := (foldlM_step_cons d _ name rest).1 h
    exact ih (isReached_step hplace hq) hrest

theorem Sets.foldlM_step_of_ok (h : d.Sets names text after)
    (hfold : n.foldlM d.step place = .ok p) : n.foldlM after.step place = .ok p := by
  induction n generalizing place with
  | nil => exact hfold
  | cons name rest ih =>
    obtain ⟨q, hq, hrest⟩ := (foldlM_step_cons d _ name rest).1 hfold
    exact (foldlM_step_cons after _ name rest).2 ⟨q, h.step_of_ok hq, ih hrest⟩

theorem Sets.foldlM_step_cases (h : d.Sets names text after)
    (hfold : n.foldlM after.step place = .ok p) :
    n.foldlM d.step place = .ok p ∨ p = .file names := by
  induction n generalizing place with
  | nil => exact .inl hfold
  | cons name rest ih =>
    obtain ⟨q, hq, hrest⟩ := (foldlM_step_cons after _ name rest).1 hfold
    obtain hbefore | rfl := h.step_cases hq
    · exact (ih hrest).imp_left fun hd => (foldlM_step_cons d _ name rest).2 ⟨q, hbefore, hd⟩
    · exact .inr (eq_of_foldlM_step_file hrest)

structure IsPath (path : String) : Prop where
  ne_empty : path ≠ ""
  no_nul : path.toList.contains '\x00' = false
  size_le : path.utf8ByteSize ≤ maxPathSize

theorem isReached_start (d : Directory) (path : String) : d.IsReached (d.start path) := by
  intro n hn
  have hplace : n <+: d.place := by
    split_ifs at hn
    · exact List.prefix_nil.1 hn ▸ List.nil_prefix
    · exact hn
  rw [isDirectory, List.isPrefixOf_iff_prefix.2 hplace, Bool.true_or]

theorem Sets.start_eq (h : d.Sets names text after) (path : String) :
    after.start path = d.start path := by
  rw [start, h.place, start]

theorem walk_of_isPath (h : IsPath path) (d : Directory) (n : List String) :
    d.walk path n = n.foldlM d.step (d.start path) := by
  rw [walk, if_neg h.ne_empty, h.no_nul, if_neg Bool.false_ne_true, if_neg (Nat.not_lt.2 h.size_le)]

theorem isPath_of_walk (h : d.walk path n = .ok p) : IsPath path := by
  rw [walk] at h
  split_ifs at h with hempty hnul hsize
  all_goals exact ⟨hempty, Bool.eq_false_iff.2 hnul, Nat.not_lt.1 hsize⟩

theorem isReached_walk (h : d.walk path n = .ok p) : d.IsReached p := by
  rw [walk_of_isPath (isPath_of_walk h)] at h
  exact isReached_foldlM_step (isReached_start d path) h

theorem Sets.walk_of_ok (h : d.Sets names text after) (hwalk : d.walk path n = .ok p) :
    after.walk path n = .ok p := by
  have hpath := isPath_of_walk hwalk
  rw [walk_of_isPath hpath] at hwalk ⊢
  rw [h.start_eq]
  exact h.foldlM_step_of_ok hwalk

theorem Sets.walk_cases (h : d.Sets names text after) (hwalk : after.walk path n = .ok p) :
    d.walk path n = .ok p ∨ p = .file names := by
  have hpath := isPath_of_walk hwalk
  rw [walk_of_isPath hpath] at hwalk ⊢
  rw [h.start_eq] at hwalk
  exact h.foldlM_step_cases hwalk

theorem walk_concat (h : d.walk path n = .ok p) (name : String) :
    d.walk path (n ++ [name]) = d.step p name := by
  have hpath := isPath_of_walk h
  rw [walk_of_isPath hpath] at h ⊢
  rw [List.foldlM_append, h]
  exact bind_pure (d.step p name)

end Walk

section Write

/-- A file is written in a directory that is there, under a name that is not a directory's. -/
theorem exists_of_write (h : d.write path text = .ok after) :
    ∃ before dir name, Directory.names path = before ++ [name] ∧
      path.toList.getLast?.any isSlash = false ∧ d.walk path before = .ok (.directory dir) ∧
      IsPlainName name ∧ d.isDirectory (dir ++ [name]) = false ∧
      after = d.put (dir ++ [name]) text := by
  rw [write] at h
  split at h
  next hnames =>
    cases hwalk : d.walk path [] <;> rw [hwalk] at h <;> cases h
  next name before hnames =>
    have hnames' : Directory.names path = before.reverse ++ [name] := by
      rw [← List.reverse_cons, ← hnames, List.reverse_reverse]
    split at h
    next => cases h
    next => cases h
    next dir hwalk =>
      split_ifs at h with hslash
      refine ⟨before.reverse, dir, name, hnames', Bool.eq_false_iff.2 hslash, hwalk, ?_⟩
      simp only [step] at h
      split_ifs at h with hhere habove hsize hdir hfile
      all_goals
        cases h
        exact ⟨⟨hhere, habove, Nat.not_lt.1 hsize⟩, Bool.eq_false_iff.2 hdir, rfl⟩

/-- The text is in the file that the path leads to, and all paths to it lead to the text. Any other
file has the text that it had, and paths to other files lead to the texts that they led to. -/
structure Writes (d : Directory) (path text : String) (after : Directory) : Prop where
  file : ∃ names, after.locate path = .ok (.file names) ∧ d.Sets names text after
  read : ∀ other, after.locate other = after.locate path → after.read other = .ok text
  others : ∀ other, after.locate other ≠ after.locate path →
    ∀ t, after.read other = .ok t ↔ d.read other = .ok t

theorem read_eq_ok_iff {t : String} :
    d.read path = .ok t ↔ ∃ names, d.locate path = .ok (.file names) ∧
      (d.text? names).getD "" = t := by
  rw [read]
  cases hlocate : d.locate path with
  | error fault => simp
  | ok place => cases place <;> simp

theorem Sets.read_eq_ok_iff {t : String} (h : d.Sets names text after)
    (hpath : after.locate path ≠ .ok (.file names)) :
    after.read path = .ok t ↔ d.read path = .ok t := by
  rw [Directory.read_eq_ok_iff, Directory.read_eq_ok_iff]
  constructor
  · rintro ⟨n, hlocate, ht⟩
    have hn : n ≠ names := fun heq => hpath (heq ▸ hlocate)
    obtain hbefore | hfile := h.walk_cases hlocate
    · exact ⟨n, hbefore, h.others n hn ▸ ht⟩
    · exact absurd (Place.file.inj hfile) hn
  · rintro ⟨n, hlocate, ht⟩
    have hafter := h.walk_of_ok hlocate
    have hn : n ≠ names := fun heq => hpath (heq ▸ hafter)
    exact ⟨n, hafter, (h.others n hn).symm ▸ ht⟩

theorem writes_of_write (h : d.write path text = .ok after) : d.Writes path text after := by
  obtain ⟨before, dir, name, hnames, hslash, hwalk, hname, hdir, rfl⟩ := exists_of_write h
  have hsets := sets_put (isReached_walk hwalk) name text
  have hthere : ((d.put (dir ++ [name]) text).text? (dir ++ [name])).isSome := by
    rw [hsets.file, Option.isSome_some]
  have hlocate : (d.put (dir ++ [name]) text).locate path = .ok (.file (dir ++ [name])) := by
    have hbefore := hsets.walk_of_ok hwalk
    rw [locate, hslash, if_neg Bool.false_ne_true, List.append_nil, hnames, walk_concat hbefore,
      step_of_isPlainName hname, hsets.directories, hdir, if_neg Bool.false_ne_true, if_pos hthere]
  exact
    { file := ⟨_, hlocate, hsets⟩
      read := fun other hother =>
        read_eq_ok_iff.2 ⟨_, hother.trans hlocate, by rw [hsets.file, Option.getD_some]⟩
      others := fun other hother t => hsets.read_eq_ok_iff (hlocate ▸ hother) }

end Write

end Directory
end RenderFarm

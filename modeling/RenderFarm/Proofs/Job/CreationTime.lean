import RenderFarm.Proofs.Job.Outcome
import RenderFarm.Proofs.Time.Calendar

/-! Creation times in derived output paths. The template ends with the creation time and the frame
number, but the texts before them come from the settings, and an opening brace in them that is never
closed takes the placeholder of the creation time into a name without a value. That is the only way
in which the creation time stays out of the path. -/
namespace RenderFarm

open Template

namespace JobSettings

/-- The directory that gets an entry for each creation time. -/
def parentPath (s : JobSettings) : String :=
  Path.join (s.outputRoot :: Path.lastDirectories s.pathComponents.toNat s.blendfile ++ [s.jobname])

theorem derivedPath_eq_append (s : JobSettings) :
    s.derivedPath =
      Path.append (Path.append s.parentPath timestampPlaceholder) frameNumberPattern := by
  have hparts : s.outputRoot :: Path.lastDirectories s.pathComponents.toNat s.blendfile ++
        [s.jobname, timestampPlaceholder, frameNumberPattern] =
      (s.outputRoot :: Path.lastDirectories s.pathComponents.toNat s.blendfile ++ [s.jobname]) ++
        [timestampPlaceholder] ++ [frameNumberPattern] := by simp
  rw [derivedPath, hparts, Path.join_concat, Path.join_concat, parentPath]

theorem toList_timestampPlaceholder :
    timestampPlaceholder.toList = placeholderText timestampName.toList := by
  rw [timestampPlaceholder, String.toList_ofList]

/-- The template is what the settings say, the creation time and the frame number. -/
theorem toList_derivedPath (s : JobSettings) :
    s.derivedPath.toList = Path.opening s.parentPath ++
      (placeholderText timestampName.toList ++ '/' :: frameNumberPattern.toList) := by
  have hentry : (Path.append s.parentPath timestampPlaceholder).toList =
      Path.opening s.parentPath ++ placeholderText timestampName.toList := by
    rw [Path.toList_append (by decide), toList_timestampPlaceholder]
  have hbrace : ¬Path.IsOpening (Path.append s.parentPath timestampPlaceholder).toList := by
    rw [hentry, placeholderText, ← List.append_assoc, Path.isOpening_concat]
    decide
  rw [derivedPath_eq_append, Path.toList_append (by decide), Path.opening_of_not_isOpening hbrace,
    hentry]
  simp only [List.append_assoc, List.singleton_append]

end JobSettings

namespace Template

theorem closes_opening {p : String} : Closes (Path.opening p) ↔ Closes p.toList := by
  unfold Path.opening
  split
  · exact Iff.rfl
  · exact closes_append_singleton (by decide) (by decide)

theorem isOpening_fill {ctx : Context} {s : List Char} (h : Closes s) (ho : Path.IsOpening s) :
    Path.IsOpening ((ofList s).fill ctx) := by
  obtain rfl | ⟨u, c, rfl⟩ := List.eq_nil_or_concat' s
  · simpa using ho
  · have hc := Path.isOpening_concat.1 ho
    have hopen : c ≠ '\x7b' := by
      rintro rfl
      exact absurd hc (by decide)
    have hclose : c ≠ '\x7d' := by
      rintro rfl
      exact absurd hc (by decide)
    have hu : Closes u := (closes_append_singleton hopen hclose).1 h
    have hlast : '\x7b' ∉ [c] := by simpa using Ne.symm hopen
    rw [fill_ofList_append hu, fill_ofList_of_not_mem hlast]
    exact Path.isOpening_concat.2 hc

end Template

namespace Job

open JobSettings

variable {zone : Zone} {options : TaskOptions} {job : Job} {s : JobSettings}

/-- An entry of a directory, with the frame number below it, adds two segments. -/
theorem segments_opening_entry {u name : List Char} (hu : Path.IsOpening u)
    (hname : ∀ c ∈ name, Path.isSeparator c = false) (hne : name ≠ []) :
    Path.segments (String.ofList (u ++ (name ++ '/' :: frameNumberPattern.toList))) =
      Path.segments (String.ofList u) ++ [String.ofList name, frameNumberPattern] := by
  have hnumber : Path.segments (String.ofList frameNumberPattern.toList) =
      [frameNumberPattern] := by decide +kernel
  rw [Path.segments_ofList_append_of_isOpening hu, Path.segments_ofList_append_cons (by decide),
    Path.segments_ofList_of_forall_not hname hne, hnumber, List.singleton_append]

theorem fill_frameNumber {ctx : Context} :
    (ofList ('/' :: frameNumberPattern.toList)).fill ctx = '/' :: frameNumberPattern.toList :=
  fill_ofList_of_not_mem (by decide)

theorem substituted_eq_ofList (zone : Zone) (job : Job) (template : String) :
    job.substituted zone template =
      String.ofList ((ofList template.toList).fill (job.context zone)) :=
  rfl

theorem isSeparator_of_mem_stamp {c : Char} (h : c ∈ (job.created.stamp zone).toList) :
    Path.isSeparator c = false := by
  have hc := Instant.isStampChar_of_mem_stamp h
  have hslash : c ≠ '/' := hc.ne (by decide)
  have hbackslash : c ≠ '\\' := hc.ne (by decide)
  simp [Path.isSeparator, hslash, hbackslash]

theorem isSeparator_of_mem_placeholder {c : Char}
    (h : c ∈ placeholderText timestampName.toList) : Path.isSeparator c = false := by
  have hall : (placeholderText timestampName.toList).all (!Path.isSeparator ·) = true := by
    decide +kernel
  simpa using List.all_eq_true.1 hall c h

theorem stamp_ne_timestampPlaceholder (zone : Zone) (t : Instant) :
    t.stamp zone ≠ timestampPlaceholder := by
  intro he
  have hbrace : '\x7b' ∈ (t.stamp zone).toList := by
    rw [he, toList_timestampPlaceholder]
    exact List.mem_cons_self ..
  exact absurd (Instant.isStampChar_of_mem_stamp hbrace) (by decide)

theorem value?_context_of_open (zone : Zone) (job : Job) {name : List Char} (h : '\x7b' ∈ name) :
    (job.context zone).value? (String.ofList name) = none := by
  have hne : String.ofList name ≠ timestampName := by
    intro he
    have hl : name = timestampName.toList := by rw [← he, String.toList_ofList]
    rw [hl] at h
    exact absurd h (by decide)
  rw [context, Context.value?_define, if_neg hne, Context.value?_empty]

theorem segments_substituted_of_closes (zone : Zone) (job : Job)
    (h : Closes s.parentPath.toList) :
    [job.created.stamp zone, frameNumberPattern] <:+
      Path.segments (job.substituted zone s.derivedPath) := by
  have hopening : Closes (Path.opening s.parentPath) := closes_opening.2 h
  have hvalue : (job.context zone).value? (String.ofList timestampName.toList) =
      some (job.created.stamp zone) := by
    rw [context, Context.value?_define, String.ofList_toList, if_pos rfl]
  have hfill : ((ofList s.derivedPath.toList).fill (job.context zone)) =
      (ofList (Path.opening s.parentPath)).fill (job.context zone) ++
        ((job.created.stamp zone).toList ++ '/' :: frameNumberPattern.toList) := by
    rw [toList_derivedPath, fill_ofList_append hopening,
      fill_ofList_placeholder (by decide) (by decide), filling_of_value hvalue,
      fill_frameNumber]
  rw [substituted_eq_ofList, hfill,
    segments_opening_entry (isOpening_fill hopening (Path.isOpening_opening _))
      (fun _ hc => isSeparator_of_mem_stamp hc) (Instant.stamp_ne_empty zone job.created),
    String.ofList_toList]
  exact List.suffix_append _ _

theorem segments_substituted_of_not_closes (zone : Zone) (job : Job)
    (h : ¬Closes s.parentPath.toList) :
    [timestampPlaceholder, frameNumberPattern] <:+
      Path.segments (job.substituted zone s.derivedPath) := by
  obtain ⟨a, b, hab, ha, hb⟩ := exists_open_of_not_closes (mt closes_opening.1 h)
  have hdir : Path.IsOpening (a ++ '\x7b' :: b) := hab ▸ Path.isOpening_opening s.parentPath
  have hfill : ((ofList s.derivedPath.toList).fill (job.context zone)) =
      ((ofList a).fill (job.context zone) ++ '\x7b' :: b) ++
        (placeholderText timestampName.toList ++ '/' :: frameNumberPattern.toList) := by
    -- The first open brace, and not the one of the creation time, starts the last placeholder.
    have hname : '\x7b' :: b ++ placeholderText timestampName.toList =
        placeholderText (b ++ '\x7b' :: timestampName.toList) := by
      simp [placeholderText]
    have hclose : '\x7d' ∉ b ++ '\x7b' :: timestampName.toList := by
      rw [List.mem_append, not_or]
      exact ⟨hb, by decide⟩
    have hopen : '\x7b' ∈ b ++ '\x7b' :: timestampName.toList := by simp
    rw [toList_derivedPath, hab, List.append_assoc, fill_ofList_append ha,
      ← List.append_assoc ('\x7b' :: b), hname, fill_ofList_placeholder (by simp) hclose,
      filling_of_no_value (value?_context_of_open zone job hopen), ← hname, fill_frameNumber]
    simp only [List.append_assoc]
  have hne : placeholderText timestampName.toList ≠ [] := List.cons_ne_nil _ _
  rw [substituted_eq_ofList, hfill,
    segments_opening_entry (Path.isOpening_append_cons.2 (Path.isOpening_append_cons.1 hdir))
      (fun _ hc => isSeparator_of_mem_placeholder hc) hne]
  exact List.suffix_append _ _

def derived (job : Job) : Job := { job with settings := job.settings.derive }

/-- A derived output path ends with the creation time and the frame number just when the texts of
the settings leave no brace open. If they leave one open, the placeholder stays in the path. -/
theorem compile_derive_creation_time {after : Job} {report : CompileReport}
    (h : job.derived.compile zone options = (.ok report, after)) :
    ∃ path, after.settings.outputPath = some path ∧
      ([job.created.stamp zone, "######"] <:+ Path.segments path ↔
        Closes job.settings.parentPath.toList) ∧
      (¬Closes job.settings.parentPath.toList →
        ["\x7btimestamp\x7d", "######"] <:+ Path.segments path) := by
  have hall := forall_holds_of_compile_eq_ok h
  obtain ⟨template, s, tasks, ht, _, _, hok⟩ := compile_of_forall_holds zone options hall
  obtain rfl : job.settings.derivedPath = template := Option.some.inj ht
  rw [hok] at h
  cases h
  have hwritten : "\x7btimestamp\x7d" = timestampPlaceholder := by decide +kernel
  have hnumber : "######" = frameNumberPattern := rfl
  rw [hwritten, hnumber]
  refine ⟨job.substituted zone job.settings.derivedPath, rfl,
    ⟨?_, segments_substituted_of_closes zone job⟩, segments_substituted_of_not_closes zone job⟩
  intro hstamp
  by_contra hopen
  have hplaceholder := segments_substituted_of_not_closes zone job hopen
  have hsame : [job.created.stamp zone, frameNumberPattern] =
      [timestampPlaceholder, frameNumberPattern] := by
    have hsuffix := List.suffix_of_suffix_length_le hstamp hplaceholder (by simp)
    exact hsuffix.eq_of_length (by simp)
  exact stamp_ne_timestampPlaceholder zone job.created (List.cons.inj hsame).1

def fiveFramesNamed (jobname : String) : Job :=
  let job := fiveFrames "/jobs/shotA/scene.blend"
  { job with settings := { job.settings with jobname } }

theorem compile_derive_creation_time_take :
    ∃ report after path,
      (fiveFramesNamed "\x7btake\x7d").derived.compile Zone.utc {} = (.ok report, after) ∧
      after.settings.outputPath = some path ∧
      ["2023-03-24_100500", "######"] <:+ Path.segments path := by
  have hreport : ((fiveFramesNamed "\x7btake\x7d").derived.compile Zone.utc {}).1 =
      .ok ⟨3, "/render/\x7btake\x7d/2023-03-24_100500/######", []⟩ := by decide +kernel
  obtain ⟨path, hpath, hiff, _⟩ := compile_derive_creation_time (Prod.ext hreport rfl)
  have hcloses : Closes (fiveFramesNamed "\x7btake\x7d").settings.parentPath.toList := by
    decide +kernel
  have hstamp : (fiveFramesNamed "\x7btake\x7d").created.stamp Zone.utc = "2023-03-24_100500" := by
    decide +kernel
  exact ⟨_, _, path, Prod.ext hreport rfl, hpath, hstamp ▸ hiff.2 hcloses⟩

theorem open_brace_hides_creation_time :
    (fiveFramesNamed "a\x7bb").settings.check = .ok () ∧
    ∃ report after,
      (fiveFramesNamed "a\x7bb").derived.compile Zone.utc {} = (.ok report, after) ∧
      after.settings.outputPath = some "/render/a\x7bb/\x7btimestamp\x7d/######" ∧
      ¬[(fiveFramesNamed "a\x7bb").created.stamp Zone.utc, "######"] <:+
        Path.segments "/render/a\x7bb/\x7btimestamp\x7d/######" := by
  have hreport : ((fiveFramesNamed "a\x7bb").derived.compile Zone.utc {}).1 =
      .ok ⟨3, "/render/a\x7bb/\x7btimestamp\x7d/######", []⟩ := by decide +kernel
  exact ⟨by decide +kernel, _, _, Prod.ext hreport rfl, by decide +kernel, by decide +kernel⟩

end Job
end RenderFarm

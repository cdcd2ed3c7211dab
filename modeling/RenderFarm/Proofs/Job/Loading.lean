import Mathlib.Data.List.Basic
import RenderFarm.JobFile
import RenderFarm.Proofs.Path.Joining

/-! What the loading of a job file gives. A file that can be loaded makes a received job whose
settings pass the check that was made before they were completed: an absolute output root is not
blank, and nothing else that the check looks at changes. The output path is derived from the
completed settings, so that what the file says about it does not count; the output root, the names
of directories and the name of the job keep their segments in it, with separators of either kind in
any place. -/
namespace RenderFarm
namespace Text

theorem isBlankText_append (s t : String) :
    isBlankText (s ++ t) = (isBlankText s && isBlankText t) := by
  simp [isBlankText]

end Text

namespace Path

theorem isAbsolute_iff {p : String} :
    isAbsolute p = true ↔
      (∃ r, p.toList = '/' :: r) ∨ (∃ r, p.toList = '\\' :: '\\' :: r) ∨
        ∃ c d r, p.toList = c :: ':' :: d :: r ∧ c.isAlpha = true ∧ isSeparator d = true := by
  unfold isAbsolute
  constructor
  · intro h
    split at h
    · rename_i r hp
      exact .inl ⟨r, hp⟩
    · rename_i r hp
      exact .inr (.inl ⟨r, hp⟩)
    · rename_i c d r _ hp
      exact .inr (.inr ⟨c, d, r, hp, Bool.and_eq_true_iff.1 h⟩)
    · cases h
  · rintro (⟨r, hp⟩ | ⟨r, hp⟩ | ⟨c, d, r, hp, hc, hd⟩)
    · simp [hp]
    · simp [hp]
    · have hslash : c ≠ '/' := by
        rintro rfl
        exact absurd hc (by decide)
      simp [hp, hc, hd]

theorem isAbsolute_append {p : String} (h : isAbsolute p = true) (t : String) :
    isAbsolute (p ++ t) = true := by
  rw [isAbsolute_iff] at h ⊢
  simp only [String.toList_append]
  rcases h with ⟨r, hp⟩ | ⟨r, hp⟩ | ⟨c, d, r, hp, hcd⟩
  · exact .inl ⟨r ++ t.toList, by rw [hp]; rfl⟩
  · exact .inr (.inl ⟨r ++ t.toList, by rw [hp]; rfl⟩)
  · exact .inr (.inr ⟨c, d, r ++ t.toList, by rw [hp]; rfl, hcd⟩)

end Path

namespace JobSettings

variable {s : JobSettings}

theorem check_eq_ok_iff :
    s.check = .ok () ↔
      (∀ r ∈ s.requirements, Text.isBlankText r.2 = false) ∧
        s.pathComponents.toNat ≤ maxPathComponents := by
  unfold check
  cases h : s.requirements.find? fun r => Text.isBlankText r.2 with
  | some r =>
    obtain ⟨key, value⟩ := r
    have hblank := List.find?_some h
    have hmem := List.mem_of_find?_eq_some h
    constructor
    · intro hok
      cases hok
    · rintro ⟨hall, -⟩
      rw [hall _ hmem] at hblank
      cases hblank
  | none =>
    have hall : ∀ r ∈ s.requirements, Text.isBlankText r.2 = false := by
      simpa using List.find?_eq_none.1 h
    by_cases hlimit : maxPathComponents < s.pathComponents.toNat
    · simp [hlimit]
    · simp only [hlimit, if_false, true_iff]
      exact ⟨hall, Nat.le_of_not_lt hlimit⟩

theorem check_withRoot (h : s.check = .ok ()) {root : String}
    (hroot : Text.isBlankText root = false) : { s with outputRoot := root }.check = .ok () := by
  obtain ⟨hall, hlimit⟩ := check_eq_ok_iff.1 h
  refine check_eq_ok_iff.2 ⟨?_, hlimit⟩
  simp only [requirements, List.forall_mem_cons] at hall ⊢
  exact ⟨hall.1, hroot, hall.2.2⟩

theorem isBlankText_outputRoot (h : s.check = .ok ()) : Text.isBlankText s.outputRoot = false :=
  (check_eq_ok_iff.1 h).1 ("render_output_root", s.outputRoot) (by simp [requirements])

@[simp] theorem check_derive (s : JobSettings) : s.derive.check = s.check := rfl

@[simp] theorem derive_derive (s : JobSettings) : s.derive.derive = s.derive := by
  cases hname : s.filename with
  | some name => simp [derive, derivedPath, hname]
  | none =>
    by_cases hbase : Path.basename s.blendfile = "" <;>
      simp [derive, derivedPath, hname, hbase]

end JobSettings

namespace JobFile

variable {config : CompilerConfig} {origin : JobOrigin} {created : Option String}

theorem isAbsolute_below {directory : String} (h : Path.isAbsolute directory = true)
    (path : String) : Path.isAbsolute (below directory path) = true := by
  unfold below
  split
  · exact Path.isAbsolute_append h path
  · rw [String.append_assoc]
    exact Path.isAbsolute_append h _

theorem isAbsolute_absoluteRoot {directory : String} (h : Path.isAbsolute directory = true)
    (root : String) : Path.isAbsolute (absoluteRoot directory root) = true := by
  unfold absoluteRoot
  split
  · assumption
  · exact isAbsolute_below h root

theorem isBlankText_absoluteRoot {root : String} (h : Text.isBlankText root = false)
    (directory : String) : Text.isBlankText (absoluteRoot directory root) = false := by
  unfold absoluteRoot below
  split
  · exact h
  · split <;> rw [Text.isBlankText_append, h, Bool.and_false]

theorem check_completedSettings {file : JobFile} (h : (file.sizedSettings config).check = .ok ())
    (directory : String) : (file.completedSettings config directory).check = .ok () := by
  rw [completedSettings, JobSettings.check_derive]
  exact JobSettings.check_withRoot h
    (isBlankText_absoluteRoot (JobSettings.isBlankText_outputRoot h) directory)

/-- The time of creation that counts: the one that is given, or that of the file, or now. -/
def creation (origin : JobOrigin) (created : Option String) (file : JobFile) :
    Except JobFileFault Instant :=
  match created <|> file.created with
  | none => .ok origin.now
  | some text => readCreated text

theorem job_of_check_ok {file : JobFile} (h : (file.sizedSettings config).check = .ok ()) :
    file.job config origin created =
      (file.creation origin created).map fun time =>
        .submit origin.id file.jobName time (file.completedSettings config origin.directory) := by
  rw [job, h, creation]
  cases created <|> file.created with
  | none => rfl
  | some text => cases hread : readCreated text <;> simp [hread, bind, Except.bind, Except.map]

theorem job_of_check_error {file : JobFile} {e : JobError}
    (h : (file.sizedSettings config).check = .error e) :
    file.job config origin created = .error (.badSettings e) := by
  rw [job, h]

theorem load_of_parse {text : String} {file : JobFile} (h : parse? text = some file) :
    load config origin created text = file.job config origin created := by
  rw [load, h]

/-- A file is loaded if it can be read, its settings pass the check, and the time of creation that
counts can be read. -/
theorem load_eq_ok_iff {text : String} {job : Job} :
    load config origin created text = .ok job ↔
      ∃ file time, parse? text = some file ∧ (file.sizedSettings config).check = .ok () ∧
        file.creation origin created = .ok time ∧
        job = .submit origin.id file.jobName time
          (file.completedSettings config origin.directory) := by
  cases hp : parse? text with
  | none => simp [load, hp]
  | some file =>
    rw [load_of_parse hp]
    cases hc : (file.sizedSettings config).check with
    | error e => simp [job_of_check_error hc, hc]
    | ok =>
      rw [job_of_check_ok hc]
      cases ht : file.creation origin created with
      | error e => simp [ht, Except.map]
      | ok time => simp [hc, ht, Except.map, eq_comm]

theorem status_of_load {text : String} {job : Job}
    (h : load config origin created text = .ok job) : job.status = .received := by
  obtain ⟨file, time, -, -, -, rfl⟩ := load_eq_ok_iff.1 h
  rfl

/-- What a job file that was loaded makes of its settings. -/
structure IsPrepared (config : CompilerConfig) (file : JobFile) (job : Job) : Prop where
  received : job.status = .received
  noTasks : job.tasks = []
  checked : job.settings.check = .ok ()
  absolute : Path.isAbsolute job.settings.outputRoot = true
  sized : job.settings.chunkSize = some (file.settings.chunkSize.getD config.defaultChunkSize)
  path : job.settings.outputPath = some job.settings.derivedPath
  derived : job.settings.derive = job.settings
  kept : job.settings =
    { file.settings with
      chunkSize := job.settings.chunkSize
      outputRoot := job.settings.outputRoot
      outputPath := job.settings.outputPath
      filename := job.settings.filename }

theorem isPrepared_of_load {text : String} {job : Job}
    (hdir : Path.isAbsolute origin.directory = true)
    (h : load config origin created text = .ok job) :
    ∃ file, parse? text = some file ∧ IsPrepared config file job := by
  obtain ⟨file, time, hp, hc, -, rfl⟩ := load_eq_ok_iff.1 h
  refine ⟨file, hp, ?_⟩
  exact
    { received := rfl
      noTasks := rfl
      checked := check_completedSettings hc _
      absolute := isAbsolute_absoluteRoot hdir _
      sized := by
        change (file.settings.chunkSize <|> some config.defaultChunkSize) = _
        cases file.settings.chunkSize <;> rfl
      path := rfl
      derived := JobSettings.derive_derive _
      kept := rfl }

/-- Of what a file does not say, its job takes the identifier, and the time if none is given. -/
theorem load_again (origin again : JobOrigin) {text : String} {file : JobFile}
    (hp : parse? text = some file) (hdir : again.directory = origin.directory) :
    load config again created text =
      (load config origin created text).map fun job =>
        { job with
          id := again.id
          created := if (created <|> file.created).isSome then job.created else again.now } := by
  rw [load_of_parse hp, load_of_parse hp]
  cases hc : (file.sizedSettings config).check with
  | error e =>
    rw [job_of_check_error hc, job_of_check_error hc]
    rfl
  | ok =>
    rw [job_of_check_ok hc, job_of_check_ok hc, hdir, creation, creation]
    cases created <|> file.created with
    | none => rfl
    | some text => cases hread : readCreated text <;> simp [hread, Except.map, Job.submit]

def withOutputPath (path : Option String) (file : JobFile) : JobFile :=
  { file with settings := { file.settings with outputPath := path } }

theorem job_withOutputPath (path : Option String) (file : JobFile) :
    (file.withOutputPath path).job config origin created = file.job config origin created := by
  cases hc : (file.sizedSettings config).check with
  | error e =>
    have hother : ((file.withOutputPath path).sizedSettings config).check = .error e := hc
    rw [job_of_check_error hc, job_of_check_error hother]
  | ok =>
    have hother : ((file.withOutputPath path).sizedSettings config).check = .ok () := hc
    rw [job_of_check_ok hc, job_of_check_ok hother]
    rfl

/-- A job file that is loaded gives a received job without tasks whose settings are those of the
file, completed: they pass the check, the output root is absolute, there is a chunk size, and the
output path is derived from them and stays so. Files that differ in the output path only are loaded
alike, but for an identifier and a time that they do not give. -/
theorem load_prepares (hdir : Path.isAbsolute origin.directory = true) :
    (∀ text job, load config origin created text = .ok job →
      ∃ file, parse? text = some file ∧ IsPrepared config file job) ∧
    ∀ text other file path (again : JobOrigin), parse? text = some file →
      parse? other = some (file.withOutputPath path) → again.directory = origin.directory →
      load config again created other =
        (load config origin created text).map fun job =>
          { job with
            id := again.id
            created := if (created <|> file.created).isSome then job.created else again.now } := by
  refine ⟨fun text job => isPrepared_of_load hdir, ?_⟩
  intro text other file path again hp ho hagain
  rw [← load_again origin again hp hagain, load_of_parse ho, load_of_parse hp, job_withOutputPath]

def exrText (line : String) : String :=
  "created='2023-03-24T10:05:00Z'\n[settings]\n" ++ line ++
    "frames='1-5'\nrender_output_root='out'\nblendfile='a/b'\njobname='c'\nformat='EXR'\n" ++
    "image_file_extension='x'"

def exrFile : JobFile where
  name := none
  created := some "2023-03-24T10:05:00Z"
  settings :=
    { frames := "1-5", chunkSize := none, outputRoot := "out", pathComponents := 0
      outputPath := none, blendfile := "a/b", jobname := "c", filename := none, fps := none
      format := ⟨"EXR"⟩, imageExtension := "x", hasPreviews := none }

theorem eq_of_parse?_map {text : String} {file : JobFile}
    (h : (parse? text).map (fun f => (f.name, f.created, f.settings)) =
      some (file.name, file.created, file.settings)) : parse? text = some file := by
  obtain ⟨f, hf, he⟩ := Option.map_eq_some_iff.1 h
  cases f
  cases file
  cases he
  exact hf

theorem parse?_exrText : parse? (exrText "") = some exrFile :=
  eq_of_parse?_map (by decide +kernel)

theorem parse?_exrText_path :
    parse? (exrText "render_output_path='old'\n") = some (exrFile.withOutputPath (some "old")) :=
  eq_of_parse?_map (by decide +kernel)

def farmOrigin (id : JobId) : JobOrigin := ⟨id, .ofSeconds 0, "/farm"⟩

def setBitsId : JobId := .ofRandom (List.replicate 16 255)

def exrJob : Job :=
  .submit .nil "c" (.ofSeconds 1679652300) (exrFile.completedSettings {} "/farm")

theorem load_exrText : load {} (farmOrigin .nil) none (exrText "") = .ok exrJob := by
  rw [load_of_parse parse?_exrText]
  decide +kernel

theorem load_prepares_exrFile :
    ∃ job, load {} (farmOrigin .nil) none (exrText "") = .ok job ∧
      job.settings.outputPath = some "/farm/out/c/\x7btimestamp\x7d/######" ∧
      IsPrepared {} exrFile job ∧
      load {} (farmOrigin setBitsId) none (exrText "render_output_path='old'\n") =
        .ok { job with id := setBitsId } := by
  have hdir : Path.isAbsolute (farmOrigin .nil).directory = true := by decide +kernel
  obtain ⟨hprepared, hagain⟩ := load_prepares hdir
  obtain ⟨file, hfile, h⟩ := hprepared _ _ load_exrText
  obtain rfl : exrFile = file := Option.some.inj (parse?_exrText.symm.trans hfile)
  refine ⟨_, load_exrText, by decide +kernel, h, ?_⟩
  rw [hagain _ _ _ _ (farmOrigin setBitsId) parse?_exrText parse?_exrText_path rfl, load_exrText]
  rfl

end JobFile

namespace JobSettings

theorem segments_timestampPlaceholder :
    Path.segments timestampPlaceholder = [timestampPlaceholder] := by decide +kernel

theorem segments_frameNumberPattern :
    Path.segments frameNumberPattern = [frameNumberPattern] := by decide +kernel

theorem segments_derivedPath (s : JobSettings) :
    Path.segments s.derivedPath =
      Path.segments s.outputRoot ++ Path.lastDirectories s.pathComponents.toNat s.blendfile ++
        Path.segments s.jobname ++ [timestampPlaceholder, frameNumberPattern] := by
  have hdirectories : (Path.lastDirectories s.pathComponents.toNat s.blendfile).flatMap
      Path.segments = Path.lastDirectories s.pathComponents.toNat s.blendfile :=
    Path.flatMap_segments_of_subset fun _ => Path.mem_segments_of_mem_lastDirectories
  rw [derivedPath, Path.segments_join, List.cons_append, List.flatMap_cons, List.flatMap_append,
    hdirectories]
  simp [segments_timestampPlaceholder, segments_frameNumberPattern]

theorem toList_outputRoot_prefix_derivedPath (s : JobSettings) :
    s.outputRoot.toList <+: s.derivedPath.toList := by
  rw [derivedPath, List.cons_append]
  exact Path.toList_prefix_join_cons _ _

theorem derive_withOutputPath (s : JobSettings) (held : Option String) :
    { s with outputPath := held }.derive =
      { s with
        outputPath := some s.derivedPath
        filename := s.filename <|> (Path.segments s.blendfile).getLast? } := by
  rw [Path.getLast?_segments]
  rfl

/-- The derived path starts with the text of the output root. Its segments are those of the root,
the last directory names of the blend file, as many as the settings call for or all there are, the
segments of the job's name, the place of the creation time and the frame number. Derivation stores
this path and fills in a missing name of the blend file with its last segment, if there is one; it
changes nothing else, and nothing at all if it is made again. -/
theorem derivedPath_shape (s : JobSettings) :
    s.outputRoot.toList <+: s.derivedPath.toList ∧
      (∃ directories, directories <:+ (Path.segments s.blendfile).dropLast ∧
        directories.length =
          min s.pathComponents.toNat (Path.segments s.blendfile).dropLast.length ∧
        Path.segments s.derivedPath =
          Path.segments s.outputRoot ++ directories ++ Path.segments s.jobname ++
            ["\x7btimestamp\x7d", "######"]) ∧
      (∀ held, { s with outputPath := held }.derive =
        { s with
          outputPath := some s.derivedPath
          filename := s.filename <|> (Path.segments s.blendfile).getLast? }) ∧
      s.derive.derive = s.derive := by
  have hpattern : timestampPlaceholder = "\x7btimestamp\x7d" := by decide +kernel
  refine ⟨toList_outputRoot_prefix_derivedPath s, ?_, derive_withOutputPath s, derive_derive s⟩
  refine ⟨_, Path.lastDirectories_suffix s.pathComponents.toNat s.blendfile,
    Path.length_lastDirectories _ _, ?_⟩
  rw [segments_derivedPath, hpattern, frameNumberPattern]

end JobSettings
end RenderFarm

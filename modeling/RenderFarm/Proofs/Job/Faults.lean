import RenderFarm.Proofs.Frames.Counting
import RenderFarm.Proofs.Job.CreationTime
import RenderFarm.Proofs.Job.Loading

/-! Faults in the content of a job. A received job that has a template fails for nothing but its
format, its frames, its chunk size and its blend file, which are examined in this order. A job file
makes such a job whenever it is loaded, and a configuration that was checked does not give it too
small a chunk size; so a loaded job fails for what its file says. -/
namespace RenderFarm

namespace JobSettings

/-- The first fault in the content of settings, and the error that tells it. -/
inductive ContentFault (s : JobSettings) : JobError → Prop
  | format (video : s.format.isVideo = true) : ContentFault s (.videoFormat s.format.name)
  | frames {fault : FrameFault} (image : s.format.isVideo = false)
      (unread : FrameSet.parse s.frames = .error (.badFrames s.frames fault)) :
      ContentFault s (.badFrames s.frames fault)
  | chunkSize {frames : FrameSet} (image : s.format.isVideo = false)
      (read : FrameSet.parse s.frames = .ok frames) (small : s.effectiveChunkSize.toInt < 1) :
      ContentFault s (.badChunkSize s.effectiveChunkSize.toInt)
  | chunkLimit {frames : FrameSet} (image : s.format.isVideo = false)
      (read : FrameSet.parse s.frames = .ok frames) (large : 1 ≤ s.effectiveChunkSize.toInt)
      (many : maxChunks < frames.chunkCount s.effectiveChunkSize.toInt.toNat) :
      ContentFault s (.badFrames frames.text (.tooManyChunks s.effectiveChunkSize.toInt
        (frames.chunkCount s.effectiveChunkSize.toInt.toNat)))
  | staging {frames : FrameSet} {chunks : List Chunk} (image : s.format.isVideo = false)
      (read : FrameSet.parse s.frames = .ok frames)
      (cut : frames.chunks s.effectiveChunkSize.toInt = .ok chunks)
      (unstaged : (Path.segments s.blendfile).length < 2) :
      ContentFault s (.badSettings (.unstageable s.blendfile))

namespace ContentFault

variable {s : JobSettings} {e : JobError}

theorem kind_ne_outputPath (h : s.ContentFault e) : e.kind ≠ "unresolved_render_output_path" := by
  cases h <;> simp [JobError.kind]

theorem ne_notReceived (h : s.ContentFault e) (id : JobId) (status : JobStatus) :
    e ≠ .badSettings (.notReceived id status) := by
  cases h <;> simp

theorem lt_of_kind_chunkSize (h : s.ContentFault e) (hkind : e.kind = "invalid_chunk_size") :
    s.effectiveChunkSize.toInt < 1 := by
  cases h with
  | chunkSize _ _ small => exact small
  | format | frames | chunkLimit | staging => simp [JobError.kind] at hkind

/-- What is wrong with the settings otherwise is that the blend file cannot be staged, and this is
found last. -/
theorem kind_settings_iff :
    (∃ e, s.ContentFault e ∧ e.kind = "invalid_settings") ↔
      (Path.segments s.blendfile).length < 2 ∧ s.format.isVideo = false ∧
        ∃ frames chunks, FrameSet.parse s.frames = .ok frames ∧
          frames.chunks s.effectiveChunkSize.toInt = .ok chunks := by
  constructor
  · rintro ⟨e, h, hkind⟩
    cases h with
    | staging image read cut unstaged => exact ⟨unstaged, image, _, _, read, cut⟩
    | format | frames | chunkSize | chunkLimit => simp [JobError.kind] at hkind
  · rintro ⟨unstaged, image, frames, chunks, read, cut⟩
    exact ⟨_, .staging image read cut unstaged, rfl⟩

end ContentFault

theorem derivedPath_ne_empty (s : JobSettings) : s.derivedPath ≠ "" := by
  intro hempty
  have hlist : s.derivedPath.toList = [] := by simp [hempty]
  rw [toList_derivedPath] at hlist
  simp at hlist

end JobSettings

namespace Job

variable {zone : Zone} {options : TaskOptions} {job : Job} {template : String} {e : JobError}

theorem compile_of_contentFault (hreceived : job.status = .received)
    (htemplate : job.HasTemplate template) (h : job.settings.ContentFault e) :
    (job.compile zone options).1 = .error e := by
  cases h with
  | format video => rw [compile_of_video hreceived video]
  | frames image unread =>
    rw [compile_of_parse_error ⟨hreceived, image, htemplate⟩ unread]
  | chunkSize image read small =>
    rw [compile_of_chunks_error ⟨hreceived, image, htemplate⟩ read (FrameSet.chunks_of_lt small _)]
  | chunkLimit image read large many =>
    have hcut := FrameSet.chunks_eq_error_iff.2 (.inr ⟨large, many, rfl⟩)
    rw [compile_of_chunks_error ⟨hreceived, image, htemplate⟩ read hcut]
  | staging image read cut unstaged =>
    rw [compile_of_author_error ⟨hreceived, image, htemplate⟩ read cut
      (Task.author_of_unstageable unstaged)]

theorem compiles_or_contentFault (hreceived : job.status = .received)
    (htemplate : job.HasTemplate template) :
    (∃ report, (job.compile zone options).1 = .ok report) ∨ ∃ e, job.settings.ContentFault e := by
  cases himage : job.settings.format.isVideo with
  | true => exact .inr ⟨_, .format himage⟩
  | false =>
    cases hread : FrameSet.parse job.settings.frames with
    | error e =>
      obtain ⟨fault, rfl⟩ := FrameSet.exists_fault_of_parse_eq_error hread
      exact .inr ⟨_, .frames himage hread⟩
    | ok frames =>
      cases hcut : frames.chunks job.settings.effectiveChunkSize.toInt with
      | error e =>
        rcases FrameSet.chunks_eq_error_iff.1 hcut with ⟨small, -⟩ | ⟨large, many, -⟩
        · exact .inr ⟨_, .chunkSize himage hread small⟩
        · exact .inr ⟨_, .chunkLimit himage hread large many⟩
      | ok chunks =>
        by_cases hstaged : (Path.segments job.settings.blendfile).length < 2
        · exact .inr ⟨_, .staging himage hread hcut hstaged⟩
        · obtain ⟨tasks, hauthor⟩ := Task.exists_author_eq_ok (Nat.not_lt.1 hstaged)
          rw [compile_of_author_ok ⟨hreceived, himage, htemplate⟩ hread hcut hauthor]
          exact .inl ⟨_, rfl⟩

/-- The errors of a received job with a template are those that tell of its content. -/
theorem compile_eq_error_iff (hreceived : job.status = .received)
    (htemplate : job.HasTemplate template) :
    (job.compile zone options).1 = .error e ↔ job.settings.ContentFault e := by
  refine ⟨fun herror => ?_, compile_of_contentFault hreceived htemplate⟩
  rcases compiles_or_contentFault hreceived htemplate with ⟨report, hok⟩ | ⟨fault, hfault⟩
  · cases hok.symm.trans herror
  · have hcompile : (job.compile zone options).1 = .error fault :=
      compile_of_contentFault hreceived htemplate hfault
    cases hcompile.symm.trans herror
    exact hfault

end Job

theorem CompilerConfig.one_le_of_check {config : CompilerConfig} (h : config.check = .ok ()) :
    1 ≤ config.defaultChunkSize.toInt := by
  unfold CompilerConfig.check at h
  split at h
  · cases h
  · split at h
    · cases h
    · rename_i hsize
      exact Int.not_lt.1 hsize

namespace JobFile

variable {config : CompilerConfig} {origin : JobOrigin} {created : Option String}

def chunkSize (config : CompilerConfig) (file : JobFile) : Int64 :=
  file.settings.chunkSize.getD config.defaultChunkSize

theorem effectiveChunkSize_completedSettings (directory : String) (file : JobFile) :
    (file.completedSettings config directory).effectiveChunkSize = file.chunkSize config := by
  change (file.settings.chunkSize <|> some config.defaultChunkSize).getD _ = _
  cases hsize : file.settings.chunkSize <;> simp [chunkSize, hsize]

theorem exists_chunkSize_of_lt (hconfig : config.check = .ok ()) {file : JobFile}
    (h : (file.chunkSize config).toInt < 1) :
    ∃ size, file.settings.chunkSize = some size ∧ size.toInt < 1 := by
  cases hsize : file.settings.chunkSize with
  | some size => exact ⟨size, rfl, by simpa [chunkSize, hsize] using h⟩
  | none =>
    rw [chunkSize, hsize] at h
    exact absurd h (Int.not_lt.2 (CompilerConfig.one_le_of_check hconfig))

theorem compile_of_load {text : String} {job : Job}
    (hload : load config origin created text = .ok job) (zone : Zone) (options : TaskOptions) :
    ∃ file, parse? text = some file ∧
      job.settings = file.completedSettings config origin.directory ∧
      ∀ e, (job.compile zone options).1 = .error e ↔ job.settings.ContentFault e := by
  obtain ⟨file, time, hparse, -, -, rfl⟩ := load_eq_ok_iff.1 hload
  refine ⟨file, hparse, rfl, fun e => Job.compile_eq_error_iff rfl ⟨rfl, ?_⟩⟩
  exact JobSettings.derivedPath_ne_empty _

/-- A loaded job can fail for its own content only: it has an output path and is received; its chunk
size is too small only if the file gives such a size; and what else is wrong with its settings is
that the blend file lies in no directory, where the format, the frames and the chunks are right. -/
theorem loaded_job_fails_for_content (hconfig : config.check = .ok ()) {text : String} {job : Job}
    (hload : load config origin created text = .ok job) (zone : Zone) (options : TaskOptions) :
    ∃ file, parse? text = some file ∧
      (∀ e, (job.compile zone options).1 = .error e →
        e.kind ≠ "unresolved_render_output_path" ∧
        (∀ id status, e ≠ .badSettings (.notReceived id status)) ∧
        (e.kind = "invalid_chunk_size" →
          ∃ size, file.settings.chunkSize = some size ∧ size.toInt < 1)) ∧
      ((∃ e, (job.compile zone options).1 = .error e ∧ e.kind = "invalid_settings") ↔
        (Path.segments file.settings.blendfile).length < 2 ∧
          file.settings.format.isVideo = false ∧
          ∃ frames chunks, FrameSet.parse file.settings.frames = .ok frames ∧
            frames.chunks (file.chunkSize config).toInt = .ok chunks) := by
  obtain ⟨file, hparse, hsettings, hfails⟩ := compile_of_load hload zone options
  have hsize : job.settings.effectiveChunkSize = file.chunkSize config := by
    rw [hsettings, effectiveChunkSize_completedSettings]
  refine ⟨file, hparse, fun e he => ?_, ?_⟩
  · have hfault := (hfails e).1 he
    refine ⟨hfault.kind_ne_outputPath, hfault.ne_notReceived, fun hkind => ?_⟩
    have hsmall := hfault.lt_of_kind_chunkSize hkind
    rw [hsize] at hsmall
    exact exists_chunkSize_of_lt hconfig hsmall
  · simp only [hfails]
    rw [JobSettings.ContentFault.kind_settings_iff, hsize, hsettings]
    rfl

def unstagedText : String :=
  "[settings]\nframes='1'\nrender_output_root='/'\nblendfile='b'\njobname='c'\nformat='P'\n" ++
    "image_file_extension='x'"

def unstagedFile : JobFile where
  name := none
  created := none
  settings :=
    { frames := "1", chunkSize := none, outputRoot := "/", pathComponents := 0
      outputPath := none, blendfile := "b", jobname := "c", filename := none, fps := none
      format := ⟨"P"⟩, imageExtension := "x", hasPreviews := none }

def unstagedJob : Job :=
  .submit .nil "c" (.ofSeconds 0) (unstagedFile.completedSettings {} "/farm")

theorem parse?_unstagedText : parse? unstagedText = some unstagedFile :=
  eq_of_parse?_map (by decide +kernel)

theorem load_unstagedText :
    load {} (farmOrigin .nil) none unstagedText = .ok unstagedJob := by
  rw [load_of_parse parse?_unstagedText]
  decide +kernel

theorem loaded_job_fails_for_content_unstaged :
    CompilerConfig.check {} = .ok () ∧
      load {} (farmOrigin .nil) none unstagedText = .ok unstagedJob ∧
      ∃ e, (unstagedJob.compile Zone.utc {}).1 = .error e ∧ e.kind = "invalid_settings" ∧
        ∀ id status, e ≠ .badSettings (.notReceived id status) := by
  have hconfig : CompilerConfig.check {} = .ok () := by decide +kernel
  refine ⟨hconfig, load_unstagedText, ?_⟩
  obtain ⟨file, hparse, hcauses, hsettings⟩ :=
    loaded_job_fails_for_content hconfig load_unstagedText Zone.utc {}
  obtain rfl : unstagedFile = file := Option.some.inj (parse?_unstagedText.symm.trans hparse)
  have hframes : ∃ frames chunks, FrameSet.parse unstagedFile.settings.frames = .ok frames ∧
      frames.chunks (unstagedFile.chunkSize {}).toInt = .ok chunks :=
    ⟨⟨[⟨1, 1, by decide, by decide⟩], List.pairwise_singleton _ _⟩, [⟨1, 1⟩],
      by decide +kernel, by decide +kernel⟩
  obtain ⟨e, he, hkind⟩ := hsettings.2 ⟨by decide +kernel, by decide +kernel, hframes⟩
  exact ⟨e, he, hkind, (hcauses e he).2.1⟩

end JobFile
end RenderFarm

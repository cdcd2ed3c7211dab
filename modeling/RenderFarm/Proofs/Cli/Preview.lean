import Mathlib.Data.List.Forall2
import RenderFarm.Cli.Run
import RenderFarm.Proofs.Job.Outcome

/-! The preview of frames. It reads the expression and cuts the frames as compilation does. So a job
with which nothing else is wrong fails with the error of its preview, or it gets a task for each
line of it. -/
namespace RenderFarm

namespace Chunk

def line (c : Chunk) : String := c.text ++ "\t" ++ c.renderRange

theorem not_mem_line (c : Chunk) : '\n' ∉ c.line.toList := by
  have htext : '\n' ∉ c.text.toList := not_mem_text rfl (by decide) c
  have hrange : '\n' ∉ c.renderRange.toList := not_mem_renderRange rfl (by decide) c
  simp [line, htext, hrange]

end Chunk

/-- The line tells the frames that the task is named after and, after a tab, the range that its
command has the renderer read. -/
def Task.IsPreviewedBy (t : Task) (line : String) : Prop :=
  ∃ frames range, line = frames ++ "\t" ++ range ∧ t.id = "render-" ++ frames ∧
    t.command.args[5]? = some "--render-frame" ∧ t.command.args[6]? = some range

namespace Task

theorem isPreviewedBy_rendering (options : TaskOptions) (format : OutputFormat)
    (parent file outputName : String) (c : Chunk) :
    (rendering options format parent file outputName c).IsPreviewedBy c.line := by
  obtain ⟨hoption, hrange⟩ := args_rendering options format parent file outputName c
  exact ⟨c.text, c.renderRange, rfl, rfl, hoption, hrange⟩

theorem forall₂_isPreviewedBy (options : TaskOptions) (format : OutputFormat)
    (parent file outputName : String) (chunks : List Chunk) :
    List.Forall₂ IsPreviewedBy (chunks.map (rendering options format parent file outputName))
      (Text.lines (String.join ((chunks.map Chunk.line).map (· ++ "\n")))) := by
  have hfree : ∀ line ∈ chunks.map Chunk.line, '\n' ∉ line.toList :=
    List.forall_mem_map.2 fun c _ => c.not_mem_line
  rw [Text.lines_join hfree, List.forall₂_map_left_iff, List.forall₂_map_right_iff,
    List.forall₂_same]
  exact fun c _ => isPreviewedBy_rendering options format parent file outputName c

end Task

namespace Job

/-- Whether the job compiles turns on its frames and its chunk size only. -/
structure TurnsOn (job : Job) (expression : String) (chunkSize : Int64) : Prop where
  frames : job.settings.frames = expression
  chunkSize : job.settings.chunkSize = some chunkSize
  received : job.status = .received
  image : job.settings.format.isVideo = false
  template : ∃ template, job.settings.outputPath = some template ∧ template ≠ ""
  staging : 2 ≤ (Path.segments job.settings.blendfile).length

variable {expression : String} {chunkSize : Int64} {job : Job}

theorem TurnsOn.exists_reachesCutting (h : job.TurnsOn expression chunkSize) :
    ∃ template, job.ReachesCutting template := by
  obtain ⟨template, htemplate⟩ := h.template
  exact ⟨template, h.received, h.image, htemplate⟩

theorem TurnsOn.effectiveChunkSize (h : job.TurnsOn expression chunkSize) :
    job.settings.effectiveChunkSize = chunkSize := by
  rw [JobSettings.effectiveChunkSize, h.chunkSize, Option.getD_some]

end Job

namespace Cli

variable {expression : String} {chunkSize : Int64} {job : Job}

/-- The chunks that a preview shows, or the error that it fails with. -/
def previewed (expression : String) (chunkSize : Int64) : Except JobError (List Chunk) :=
  FrameSet.parse expression >>= FrameSet.chunks chunkSize.toInt

theorem report_badFrames (e : JobError) :
    (Failure.badFrames e).report = "Error: " ++ e.message ++ "\n" := by
  have hreport : (Failure.badFrames e).report = "Error: " ++ e.message ++ "\n" ++ "" := rfl
  rw [hreport, String.append_empty]

theorem frames_of_error {e : JobError} (h : previewed expression chunkSize = .error e) :
    frames expression chunkSize = { code := 1, report := "Error: " ++ e.message ++ "\n" } := by
  rw [previewed] at h
  rw [frames, h]
  simp only [finish, report_badFrames]

theorem frames_of_ok {chunks : List Chunk} (h : previewed expression chunkSize = .ok chunks) :
    frames expression chunkSize =
      { code := 0, stdout := String.join ((chunks.map Chunk.line).map (· ++ "\n")) } := by
  rw [previewed] at h
  rw [frames, h]
  simp only [finish, List.map_map, Function.comp_def, Chunk.line, String.empty_append]

/-- A job that turns on them fails as the preview does. -/
theorem compile_of_previewed_error (h : job.TurnsOn expression chunkSize) {e : JobError}
    (he : previewed expression chunkSize = .error e) (zone : Zone) (options : TaskOptions) :
    (job.compile zone options).1 = .error e := by
  obtain ⟨template, hcut⟩ := h.exists_reachesCutting
  rw [previewed, ← h.frames, ← h.effectiveChunkSize] at he
  cases hparse : FrameSet.parse job.settings.frames with
  | error fault =>
    rw [hparse] at he
    cases he
    rw [Job.compile_of_parse_error hcut hparse]
  | ok s =>
    rw [hparse] at he
    rw [Job.compile_of_chunks_error hcut hparse he]

/-- Otherwise it gets a task for each chunk that the preview shows. -/
theorem exists_compile_of_previewed_ok (h : job.TurnsOn expression chunkSize) {chunks : List Chunk}
    (hchunks : previewed expression chunkSize = .ok chunks) (zone : Zone) (options : TaskOptions) :
    ∃ report after parent file name, job.compile zone options = (.ok report, after) ∧
      after.tasks = job.tasks ++
        chunks.map (Task.rendering options job.settings.format parent file name) := by
  obtain ⟨template, hcut⟩ := h.exists_reachesCutting
  rw [previewed, ← h.frames, ← h.effectiveChunkSize] at hchunks
  cases hparse : FrameSet.parse job.settings.frames with
  | error fault =>
    rw [hparse] at hchunks
    cases hchunks
  | ok s =>
    rw [hparse] at hchunks
    obtain ⟨tasks, hauthor⟩ := Task.exists_author_eq_ok h.staging
    obtain ⟨parent, file, -, htasks⟩ := Task.author_eq_ok_iff.1 hauthor
    exact ⟨_, _, parent, file, _, Job.compile_of_author_ok hcut hparse hchunks hauthor,
      congrArg (job.tasks ++ ·) htasks.symm⟩

/-- The preview fails just when a job that turns on the frames fails to compile, and with the same
error. If they do not fail, the lines of the preview show the tasks that the job gets, one by one
and in order. -/
theorem frames_agrees_with_compile (h : job.TurnsOn expression chunkSize) (zone : Zone)
    (options : TaskOptions) :
    (∀ e, previewed expression chunkSize = .error e ↔
      (job.compile zone options).1 = .error e) ∧
    (∀ e, (job.compile zone options).1 = .error e →
      frames expression chunkSize = { code := 1, report := "Error: " ++ e.message ++ "\n" }) ∧
    ∀ report after, job.compile zone options = (.ok report, after) →
      ∃ shown appended, frames expression chunkSize = { code := 0, stdout := shown } ∧
        after.tasks = job.tasks ++ appended ∧
        List.Forall₂ Task.IsPreviewedBy appended (Text.lines shown) := by
  cases hpreview : previewed expression chunkSize with
  | error e =>
    have hcompile := compile_of_previewed_error h hpreview zone options
    refine ⟨fun e' => ?_, fun e' he' => ?_, fun report after hok => ?_⟩
    · rw [hcompile, Except.error.injEq, Except.error.injEq]
    · rw [hcompile] at he'
      cases he'
      exact frames_of_error hpreview
    · rw [hok] at hcompile
      cases hcompile
  | ok chunks =>
    obtain ⟨report, after, parent, file, name, hcompile, htasks⟩ :=
      exists_compile_of_previewed_ok h hpreview zone options
    rw [hcompile]
    refine ⟨fun e => ⟨fun he => ?_, fun he => ?_⟩, fun e he => ?_, ?_⟩
    · cases he
    · cases he
    · cases he
    · rintro _ _ ⟨⟩
      exact ⟨_, _, frames_of_ok hpreview, htasks, Task.forall₂_isPreviewedBy _ _ _ _ _ chunks⟩

theorem turnsOn_fiveFrames : (Job.fiveFrames "/jobs/shotA/scene.blend").TurnsOn "1-5" 2 where
  frames := rfl
  chunkSize := rfl
  received := rfl
  image := by decide +kernel
  template := ⟨_, rfl, by decide⟩
  staging := by decide +kernel

theorem frames_agrees_with_compile_fiveFrames :
    ∃ shown, frames "1-5" 2 = { code := 0, stdout := shown } ∧
      Text.lines shown = ["1-2\t1..2", "3-4\t3..4", "5\t5"] ∧
      List.Forall₂ Task.IsPreviewedBy
        ((Job.fiveFrames "/jobs/shotA/scene.blend").compile Zone.utc {}).2.tasks
        (Text.lines shown) := by
  have hreport : ((Job.fiveFrames "/jobs/shotA/scene.blend").compile Zone.utc {}).1 =
      .ok ⟨3, "/render/anim/2023-03-24_100500/######", []⟩ := by decide +kernel
  have hshown : frames "1-5" 2 = { code := 0, stdout := "1-2\t1..2\n3-4\t3..4\n5\t5\n" } := by
    decide +kernel
  obtain ⟨-, -, hlines⟩ := frames_agrees_with_compile turnsOn_fiveFrames Zone.utc {}
  obtain ⟨shown, appended, hframes, htasks, hpreviewed⟩ := hlines _ _ (Prod.ext hreport rfl)
  obtain rfl : "1-2\t1..2\n3-4\t3..4\n5\t5\n" = shown :=
    congrArg Outcome.stdout (hshown.symm.trans hframes)
  refine ⟨_, hshown, by decide +kernel, ?_⟩
  rw [htasks]
  exact hpreviewed

end Cli
end RenderFarm

import RenderFarm.Job
import RenderFarm.Proofs.Frames.Partition
import RenderFarm.Proofs.Path.Segments

/-! The stages of compilation. For each stage: the fault that it finds and the condition under which
it finds none, and then the state to which it brings the job; authoring gives one task for each
chunk, in order, if the blend file has staged names. A run ends at the first fault. No stage looks
at the identifier of the job. -/
namespace RenderFarm
namespace Task

def rendering (options : TaskOptions) (format : OutputFormat) (parent file outputName : String)
    (chunk : Chunk) : Task where
  id := renderId chunk
  workerType := options.workerType
  command := renderCommand options format parent file outputName chunk

variable {options : TaskOptions} {settings : JobSettings} {outputPath : String}
  {chunks : List Chunk}

theorem author_eq_ok_iff {tasks : List Task} :
    author options settings outputPath chunks = .ok tasks ↔
      ∃ parent file, Path.parentAndFile? settings.blendfile = some (parent, file) ∧
        chunks.map (rendering options settings.format parent file (Path.basename outputPath)) =
          tasks := by
  unfold author
  cases h : Path.parentAndFile? settings.blendfile with
  | none => simp
  | some names =>
    obtain ⟨parent, file⟩ := names
    simp only [Except.ok.injEq, Option.some.injEq, Prod.mk.injEq]
    constructor
    · rintro rfl
      exact ⟨parent, file, ⟨rfl, rfl⟩, rfl⟩
    · rintro ⟨_, _, ⟨rfl, rfl⟩, rfl⟩
      rfl

theorem exists_author_eq_ok (h : 2 ≤ (Path.segments settings.blendfile).length) :
    ∃ tasks, author options settings outputPath chunks = .ok tasks := by
  cases hn : Path.parentAndFile? settings.blendfile with
  | none =>
    have hl := Path.parentAndFile?_eq_none_iff.1 hn
    omega
  | some names => exact ⟨_, author_eq_ok_iff.2 ⟨names.1, names.2, hn, rfl⟩⟩

theorem author_of_unstageable (h : (Path.segments settings.blendfile).length < 2) :
    author options settings outputPath chunks =
      .error (.badSettings (.unstageable settings.blendfile)) := by
  rw [author, Path.parentAndFile?_eq_none_iff.2 h]

theorem args_rendering (options : TaskOptions) (format : OutputFormat)
    (parent file outputName : String) (chunk : Chunk) :
    (rendering options format parent file outputName chunk).command.args[5]? =
        some "--render-frame" ∧
      (rendering options format parent file outputName chunk).command.args[6]? =
        some chunk.renderRange :=
  ⟨rfl, rfl⟩

end Task

namespace JobSettings

def findings (s : JobSettings) : List JobWarning :=
  if s.format.isFfmpegIncompatible then [.noPreview s.format] else []

end JobSettings

namespace Job

def HasTemplate (job : Job) (template : String) : Prop :=
  job.settings.outputPath = some template ∧ template ≠ ""

theorem resolvedPath_of_hasTemplate {zone : Zone} {job : Job} {template : String}
    (h : job.HasTemplate template) :
    job.resolvedPath zone = .ok ((job.context zone).substitute template) := by
  rw [resolvedPath, h.1]
  simp only [if_neg h.2]

theorem resolvedPath_of_forall_not {zone : Zone} {job : Job}
    (h : ∀ template, ¬job.HasTemplate template) : job.resolvedPath zone = .error .noOutputPath := by
  unfold resolvedPath
  cases hp : job.settings.outputPath with
  | none => rfl
  | some template =>
    have he : template = "" := by
      by_contra hne
      exact h template ⟨hp, hne⟩
    simp [he]

end Job

namespace Compilation

variable {zone : Zone} {options : TaskOptions} {job : Job} {path : String} {chunks : List Chunk}
  {tasks : List Task}

def validated (job : Job) : Compilation where
  job := job.withStatus .validated
  warnings := job.settings.findings

def pathResolved (path : String) (job : Job) : Compilation where
  job := (job.withOutputPath path).withStatus .pathResolved
  warnings := job.settings.findings
  outputPath := path

def chunked (path : String) (chunks : List Chunk) (job : Job) : Compilation where
  job := (job.withOutputPath path).withStatus .chunked
  warnings := job.settings.findings
  outputPath := path
  chunks := chunks

def authored (path : String) (chunks : List Chunk) (tasks : List Task) (job : Job) :
    Compilation where
  job := (job.withOutputPath path).withStatus .tasksAuthored
  warnings := job.settings.findings
  outputPath := path
  chunks := chunks
  tasks := tasks

theorem validate_of_image (h : job.settings.format.isVideo = false) :
    validate { job } = .ok (validated job) := by
  simp [validate, JobSettings.validate, h, Except.map, validated, JobSettings.findings]

theorem validate_of_video (h : job.settings.format.isVideo = true) :
    validate { job } = .error (.videoFormat job.settings.format.name) := by
  simp [validate, JobSettings.validate, h, Except.map]

theorem resolvePath_of_ok (h : job.resolvedPath zone = .ok path) :
    resolvePath zone (validated job) = .ok (pathResolved path job) := by
  have hv : (validated job).job.resolvedPath zone = .ok path := h
  rw [resolvePath, hv]
  rfl

theorem resolvePath_of_error {e : JobError} (h : job.resolvedPath zone = .error e) :
    resolvePath zone (validated job) = .error e := by
  have hv : (validated job).job.resolvedPath zone = .error e := h
  rw [resolvePath, hv]
  rfl

theorem cutFrames_of_parse_error {e : JobError}
    (h : FrameSet.parse job.settings.frames = .error e) :
    cutFrames (pathResolved path job) = .error e := by
  have hp : FrameSet.parse (pathResolved path job).job.settings.frames = .error e := h
  rw [cutFrames, hp]
  rfl

theorem cutFrames_of_chunks_error {s : FrameSet} {e : JobError}
    (h : FrameSet.parse job.settings.frames = .ok s)
    (hc : s.chunks job.settings.effectiveChunkSize.toInt = .error e) :
    cutFrames (pathResolved path job) = .error e := by
  have hp : FrameSet.parse (pathResolved path job).job.settings.frames = .ok s := h
  have hs : s.chunks (pathResolved path job).job.settings.effectiveChunkSize.toInt = .error e := hc
  simp only [cutFrames, hp, hs, bind, Except.bind]

theorem cutFrames_of_ok {s : FrameSet} (h : FrameSet.parse job.settings.frames = .ok s)
    (hc : s.chunks job.settings.effectiveChunkSize.toInt = .ok chunks) :
    cutFrames (pathResolved path job) = .ok (chunked path chunks job) := by
  have hp : FrameSet.parse (pathResolved path job).job.settings.frames = .ok s := h
  have hs : s.chunks (pathResolved path job).job.settings.effectiveChunkSize.toInt =
      .ok chunks := hc
  simp only [cutFrames, hp, hs, bind, Except.bind]
  rfl

theorem authorTasks_of_ok (h : Task.author options job.settings path chunks = .ok tasks) :
    authorTasks options (chunked path chunks job) = .ok (authored path chunks tasks job) := by
  have ha : Task.author options (chunked path chunks job).job.settings
      (chunked path chunks job).outputPath (chunked path chunks job).chunks = .ok tasks := h
  rw [authorTasks, ha]
  rfl

theorem authorTasks_of_error {e : JobError}
    (h : Task.author options job.settings path chunks = .error e) :
    authorTasks options (chunked path chunks job) = .error e := by
  have ha : Task.author options (chunked path chunks job).job.settings
      (chunked path chunks job).outputPath (chunked path chunks job).chunks = .error e := h
  rw [authorTasks, ha]
  rfl

theorem emitTasks_authored :
    emitTasks (authored path chunks tasks job) =
      .ok { authored path chunks tasks job with
        job := ((job.withOutputPath path).addTasks tasks).withStatus .emitted } :=
  rfl

theorem run_cons_of_ok {stage : Stage} {rest : List Stage} {c c' : Compilation}
    (h : stage c = .ok c') : run (stage :: rest) c = run rest c' := by
  rw [run, h]

theorem run_cons_of_error {stage : Stage} {rest : List Stage} {c : Compilation} {e : JobError}
    (h : stage c = .error e) : run (stage :: rest) c = (.error e, c.job.reject) := by
  rw [run, h]

end Compilation

namespace Job

open Compilation

variable {zone : Zone} {options : TaskOptions} {job : Job} {template : String} {s : FrameSet}
  {chunks : List Chunk}

def substituted (zone : Zone) (job : Job) (template : String) : String :=
  (Context.empty.define "timestamp" (job.created.stamp zone)).substitute template

/-- The job passes the stages before its frames are read. -/
structure ReachesCutting (job : Job) (template : String) : Prop where
  received : job.status = .received
  image : job.settings.format.isVideo = false
  hasTemplate : job.HasTemplate template

theorem compile_of_not_received (h : job.status ≠ .received) :
    job.compile zone options = (.error (.badSettings (.notReceived job.id job.status)), job) := by
  rw [compile, if_pos h]

theorem compile_of_received (h : job.status = .received) :
    job.compile zone options = run (stages zone options) { job } := by
  rw [compile, if_neg (not_not.2 h)]

theorem compile_of_video (hr : job.status = .received)
    (hv : job.settings.format.isVideo = true) :
    job.compile zone options = (.error (.videoFormat job.settings.format.name), job.reject) := by
  rw [compile_of_received hr, stages, run_cons_of_error (validate_of_video hv)]

theorem compile_of_no_template (hr : job.status = .received)
    (hi : job.settings.format.isVideo = false) (hn : ∀ text, ¬job.HasTemplate text) :
    job.compile zone options = (.error .noOutputPath, job.reject) := by
  rw [compile_of_received hr, stages, run_cons_of_ok (validate_of_image hi),
    run_cons_of_error (resolvePath_of_error (resolvedPath_of_forall_not hn))]
  rfl

theorem compile_of_reachesCutting (h : job.ReachesCutting template) :
    job.compile zone options =
      run [cutFrames, authorTasks options, emitTasks]
        (pathResolved (job.substituted zone template) job) := by
  rw [compile_of_received h.received, stages, run_cons_of_ok (validate_of_image h.image),
    run_cons_of_ok (resolvePath_of_ok (resolvedPath_of_hasTemplate h.hasTemplate))]
  rfl

theorem compile_of_parse_error (h : job.ReachesCutting template) {e : JobError}
    (hp : FrameSet.parse job.settings.frames = .error e) :
    job.compile zone options =
      (.error e, (job.withOutputPath (job.substituted zone template)).reject) := by
  rw [compile_of_reachesCutting h, run_cons_of_error (cutFrames_of_parse_error hp)]
  rfl

theorem compile_of_chunks_error (h : job.ReachesCutting template)
    (hp : FrameSet.parse job.settings.frames = .ok s) {e : JobError}
    (hc : s.chunks job.settings.effectiveChunkSize.toInt = .error e) :
    job.compile zone options =
      (.error e, (job.withOutputPath (job.substituted zone template)).reject) := by
  rw [compile_of_reachesCutting h, run_cons_of_error (cutFrames_of_chunks_error hp hc)]
  rfl

theorem compile_of_author_error (h : job.ReachesCutting template)
    (hp : FrameSet.parse job.settings.frames = .ok s)
    (hc : s.chunks job.settings.effectiveChunkSize.toInt = .ok chunks) {e : JobError}
    (ha : Task.author options job.settings (job.substituted zone template) chunks = .error e) :
    job.compile zone options =
      (.error e, (job.withOutputPath (job.substituted zone template)).reject) := by
  rw [compile_of_reachesCutting h, run_cons_of_ok (cutFrames_of_ok hp hc),
    run_cons_of_error (authorTasks_of_error ha)]
  rfl

theorem compile_of_author_ok (h : job.ReachesCutting template)
    (hp : FrameSet.parse job.settings.frames = .ok s)
    (hc : s.chunks job.settings.effectiveChunkSize.toInt = .ok chunks) {tasks : List Task}
    (ha : Task.author options job.settings (job.substituted zone template) chunks = .ok tasks) :
    job.compile zone options =
      (.ok ⟨tasks.length, job.substituted zone template, job.settings.findings⟩,
        ((job.withOutputPath (job.substituted zone template)).addTasks tasks).withStatus
          .emitted) := by
  rw [compile_of_reachesCutting h, run_cons_of_ok (cutFrames_of_ok hp hc),
    run_cons_of_ok (authorTasks_of_ok ha), run_cons_of_ok emitTasks_authored]
  rfl

end Job

def Job.withId (id : JobId) (job : Job) : Job := { job with id }

namespace Compilation

def withId (id : JobId) (c : Compilation) : Compilation := { c with job := c.job.withId id }

def Stage.IgnoresId (stage : Stage) : Prop :=
  ∀ id c, stage (c.withId id) = (stage c).map (withId id)

theorem ignoresId_validate : Stage.IgnoresId validate := by
  intro id c
  have hsettings : (c.withId id).job.settings = c.job.settings := rfl
  rw [validate, validate, hsettings]
  cases c.job.settings.validate <;> rfl

theorem ignoresId_resolvePath (zone : Zone) : Stage.IgnoresId (resolvePath zone) := by
  intro id c
  have hpath : (c.withId id).job.resolvedPath zone = c.job.resolvedPath zone := rfl
  rw [resolvePath, resolvePath, hpath]
  cases c.job.resolvedPath zone <;> rfl

theorem ignoresId_cutFrames : Stage.IgnoresId cutFrames := by
  intro id c
  have hsettings : (c.withId id).job.settings = c.job.settings := rfl
  rw [cutFrames, cutFrames, hsettings]
  cases hparse : FrameSet.parse c.job.settings.frames with
  | error e => rfl
  | ok s =>
    cases hchunks : s.chunks c.job.settings.effectiveChunkSize.toInt with
    | error e => simp only [hchunks, bind, Except.bind, Except.map]
    | ok chunks =>
      simp only [hchunks, bind, Except.bind]
      rfl

theorem ignoresId_authorTasks (options : TaskOptions) :
    Stage.IgnoresId (authorTasks options) := by
  intro id c
  have hauthor : Task.author options (c.withId id).job.settings (c.withId id).outputPath
      (c.withId id).chunks = Task.author options c.job.settings c.outputPath c.chunks := rfl
  rw [authorTasks, authorTasks, hauthor]
  cases Task.author options c.job.settings c.outputPath c.chunks <;> rfl

theorem ignoresId_of_mem_stages {zone : Zone} {options : TaskOptions} {stage : Stage}
    (h : stage ∈ stages zone options) : stage.IgnoresId := by
  simp only [stages, List.mem_cons, List.not_mem_nil, or_false] at h
  rcases h with rfl | rfl | rfl | rfl | rfl
  · exact ignoresId_validate
  · exact ignoresId_resolvePath zone
  · exact ignoresId_cutFrames
  · exact ignoresId_authorTasks options
  · exact fun _ _ => rfl

theorem run_withId {stages : List Stage} (h : ∀ stage ∈ stages, stage.IgnoresId) (id : JobId)
    (c : Compilation) :
    run stages (c.withId id) = ((run stages c).1, (run stages c).2.withId id) := by
  induction stages generalizing c with
  | nil => rfl
  | cons stage stages ih =>
    obtain ⟨hstage, hstages⟩ := List.forall_mem_cons.1 h
    rw [run, run, hstage]
    cases stage c with
    | error e => rfl
    | ok c' => exact ih hstages c'

end Compilation

namespace Job

theorem compile_withId {zone : Zone} {options : TaskOptions} {job : Job}
    (h : job.status = .received) (id : JobId) :
    (job.withId id).compile zone options =
      ((job.compile zone options).1, (job.compile zone options).2.withId id) := by
  have hid : (job.withId id).status = .received := h
  rw [compile_of_received hid, compile_of_received h]
  exact Compilation.run_withId (fun _ => Compilation.ignoresId_of_mem_stages) id { job }

end Job
end RenderFarm

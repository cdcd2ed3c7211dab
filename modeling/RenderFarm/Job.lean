import RenderFarm.Json.Writer
import RenderFarm.Task
import RenderFarm.Time.Rfc3339

/-! Render jobs, their compilation, and their form in documents. A job is compiled in stages: the
format is checked, the output path is resolved, the frames are cut into chunks, a task is authored
for each chunk, and the job gets all of them, or none if a stage finds a fault. A job is compiled at
most once. -/
namespace RenderFarm

structure Job where
  id : JobId
  name : String
  created : Instant
  settings : JobSettings
  status : JobStatus
  tasks : List Task
  deriving DecidableEq

namespace Job

def submit (id : JobId) (name : String) (created : Instant) (settings : JobSettings) : Job :=
  { id, name, created, settings, status := .received, tasks := [] }

def fieldNames : List String := ["id", "name", "created", "settings", "status", "tasks"]

def toDatum (j : Job) : Datum :=
  .record (fieldNames.zip
    [some (.text j.id.text), some (.text j.name), some (.text j.created.toRfc3339),
     some j.settings.toDatum, some (.text j.status.name),
     some (.list (j.tasks.map Task.toDatum))])

def idOfDatum? (d : Datum) : Option JobId := d.text? >>= JobId.ofText?

def createdOfDatum? (d : Datum) : Option Instant := d.text? >>= Rfc3339.readLenient?

/-- A status is a word, or a table with that word as the name of an empty entry. -/
def statusOfDatum? : Datum → Option JobStatus
  | .text s => JobStatus.ofName? s
  | .table [(s, .null)] => JobStatus.ofName? s
  | _ => none

def tasksOfDatum? (d : Datum) : Option (List Task) := d.list? >>= List.mapM Task.ofDatum?

def ofDatum? (d : Datum) : Option Job :=
  match d.fields? true fieldNames with
  | some [id, name, created, settings, status, tasks] => do
    some
      { id := ← Datum.required idOfDatum? id
        name := ← Datum.required Datum.text? name
        created := ← Datum.required createdOfDatum? created
        settings := ← Datum.required (JobSettings.ofDatum? true) settings
        status := ← Datum.required statusOfDatum? status
        tasks := ← Datum.defaulted [] tasksOfDatum? tasks }
  | _ => none

end Job

structure CompileReport where
  taskCount : Nat
  outputPath : String
  warnings : List JobWarning
  deriving DecidableEq

namespace Job

def context (zone : Zone) (job : Job) : Context :=
  Context.empty.define JobSettings.timestampName (job.created.stamp zone)

/-- The output path with the creation time filled in. -/
def resolvedPath (zone : Zone) (job : Job) : Except JobError String :=
  match job.settings.outputPath with
  | none => .error .noOutputPath
  | some template =>
    if template = "" then .error .noOutputPath else .ok ((job.context zone).substitute template)

def withOutputPath (path : String) (job : Job) : Job :=
  { job with settings := { job.settings with outputPath := some path } }

def resolve (zone : Zone) (job : Job) : Except JobError Job :=
  (job.resolvedPath zone).map fun path => job.withOutputPath path

def withStatus (status : JobStatus) (job : Job) : Job := { job with status }

def reject (job : Job) : Job := job.withStatus .rejected

def addTask (task : Task) (job : Job) : Job := { job with tasks := job.tasks ++ [task] }

def addTasks (tasks : List Task) (job : Job) : Job := { job with tasks := job.tasks ++ tasks }

theorem addTasks_eq_foldl (tasks : List Task) (job : Job) :
    job.addTasks tasks = tasks.foldl (fun job task => job.addTask task) job := by
  induction tasks generalizing job with
  | nil => simp [addTasks]
  | cons task tasks ih =>
    rw [List.foldl_cons, ← ih (job.addTask task)]
    simp [addTasks, addTask]

end Job

/-- A job on its way through compilation, and what the stages so far have made for it. -/
structure Compilation where
  job : Job
  warnings : List JobWarning := []
  outputPath : String := ""
  chunks : List Chunk := []
  tasks : List Task := []

namespace Compilation

/-- A stage does its part and moves the job to its next status, or it finds a fault. -/
abbrev Stage := Compilation → Except JobError Compilation

def validate : Stage := fun c =>
  c.job.settings.validate.map fun warnings =>
    { c with job := c.job.withStatus .validated, warnings }

def resolvePath (zone : Zone) : Stage := fun c =>
  (c.job.resolvedPath zone).map fun outputPath =>
    { c with job := (c.job.withOutputPath outputPath).withStatus .pathResolved, outputPath }

def cutFrames : Stage := fun c => do
  let frames ← FrameSet.parse c.job.settings.frames
  let chunks ← frames.chunks c.job.settings.effectiveChunkSize.toInt
  return { c with job := c.job.withStatus .chunked, chunks }

def authorTasks (options : TaskOptions) : Stage := fun c =>
  (Task.author options c.job.settings c.outputPath c.chunks).map fun tasks =>
    { c with job := c.job.withStatus .tasksAuthored, tasks }

def emitTasks : Stage := fun c =>
  .ok { c with job := (c.job.addTasks c.tasks).withStatus .emitted }

def stages (zone : Zone) (options : TaskOptions) : List Stage :=
  [validate, resolvePath zone, cutFrames, authorTasks options, emitTasks]

def report (c : Compilation) : CompileReport := ⟨c.tasks.length, c.outputPath, c.warnings⟩

/-- Goes through stages up to the first fault. The job is rejected then, in the state to which the
stages before have brought it. -/
def run : List Stage → Compilation → Except JobError CompileReport × Job
  | [], c => (.ok c.report, c.job)
  | stage :: rest, c =>
    match stage c with
    | .ok c' => run rest c'
    | .error e => (.error e, c.job.reject)

end Compilation

/-- Compiles a job: the report or the first fault, and the job afterwards. A job that was not
received stays as it is. -/
def Job.compile (zone : Zone) (options : TaskOptions) (job : Job) :
    Except JobError CompileReport × Job :=
  if job.status ≠ .received then (.error (.badSettings (.notReceived job.id job.status)), job)
  else Compilation.run (Compilation.stages zone options) { job }

namespace Job

def document (job : Job) (warnings : List JobWarning) : Datum :=
  .table [("job", job.toDatum), ("warnings", .ofTexts (warnings.map JobWarning.message))]

/-- The text of the document, on one line or laid out, with a line break at its end. -/
def emission (pretty : Bool) (job : Job) (warnings : List JobWarning) : String :=
  Json.render pretty (job.document warnings) ++ "\n"

end Job
end RenderFarm

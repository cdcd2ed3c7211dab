import RenderFarm.Cli.Run

/-! Commands that only read. Configuration and job files are read and nothing is written before a
job is compiled, so the files are as before whatever comes of it; and what comes of it is a value
that depends on the directory. -/
namespace RenderFarm

def Directory.result {α : Type} (d : Directory) (x : StateM Directory α) : α := (x.run d).1

/-- The action leaves every directory as it is. -/
def ReadsOnly {α : Type} (x : StateM Directory α) : Prop := ∀ d, x.run d = (d.result x, d)

section

variable {α β : Type}

theorem readsOnly_pure (a : α) : ReadsOnly (pure a) := fun _ => rfl

theorem ReadsOnly.run_bind {x : StateM Directory α} (h : ReadsOnly x) (f : α → StateM Directory β)
    (d : Directory) : (x >>= f).run d = (f (d.result x)).run d := by
  have hx : x d = (d.result x, d) := h d
  change f (x d).1 (x d).2 = f (d.result x) d
  rw [hx]

theorem ReadsOnly.bind {x : StateM Directory α} (h : ReadsOnly x) {f : α → StateM Directory β}
    (hf : ∀ a, ReadsOnly (f a)) : ReadsOnly (x >>= f) := by
  intro d
  rw [Directory.result, h.run_bind, hf]

theorem ReadsOnly.result_bind {x : StateM Directory α} (h : ReadsOnly x)
    (f : α → StateM Directory β) (d : Directory) :
    d.result (x >>= f) = d.result (f (d.result x)) := by
  rw [Directory.result, h.run_bind]
  rfl

theorem readsOnly_read (path : String) : ReadsOnly (Files.read path) := fun _ => rfl

theorem readsOnly_present (path : String) : ReadsOnly (Files.present path) := fun _ => rfl

end

namespace Cli

theorem readsOnly_readConfig (path : String) : ReadsOnly (readConfig path) := by
  refine (readsOnly_read path).bind fun read => ?_
  cases read with
  | error fault => exact readsOnly_pure _
  | ok text =>
    cases hparse : Config.parse? text with
    | none =>
      simp only [hparse]
      exact readsOnly_pure _
    | some config =>
      simp only [hparse]
      cases config.compiler.check <;> exact readsOnly_pure _

theorem readsOnly_readFirstConfig (paths : List String) : ReadsOnly (readFirstConfig paths) := by
  induction paths with
  | nil => exact readsOnly_pure _
  | cons path paths ih =>
    refine (readsOnly_present path).bind fun present => ?_
    cases present with
    | true => exact readsOnly_readConfig path
    | false => exact ih

theorem readsOnly_loadConfig (home : String) (choice : Option String) :
    ReadsOnly (loadConfig home choice) := by
  cases choice with
  | none => exact readsOnly_readFirstConfig _
  | some path => exact readsOnly_readConfig path

theorem readsOnly_loadJob (config : Config) (origin : JobOrigin) (created : Option String)
    (path : String) : ReadsOnly (loadJob config origin created path) := by
  refine (readsOnly_read path).bind fun read => ?_
  cases read with
  | error fault => exact readsOnly_pure _
  | ok text => exact readsOnly_pure _

theorem readsOnly_compiledJob (config : Config) (s : Surroundings) (created : Option String)
    (path : String) : ReadsOnly (compiledJob config s created path) := by
  refine (readsOnly_loadJob config s.origin created path).bind fun loaded => ?_
  cases loaded with
  | error f => exact readsOnly_pure _
  | ok job =>
    simp only
    cases job.compile s.zone config.compiler.tasks with
    | mk report after => cases report <;> exact readsOnly_pure _

/-- What comes of the text of a job file, or of the fault with which it was read: the report and the
compiled job, or why there is none. -/
def jobOutcome (config : Config) (s : Surroundings) (created : Option String) (path : String)
    (read : Except FileFault String) : Except Failure (CompileReport × Job) :=
  match read with
  | .error fault => .error (.jobUnreadable path fault)
  | .ok text =>
    match JobFile.load config.compiler s.origin created text with
    | .error fault => .error (.badJobFile path fault)
    | .ok job =>
      match job.compile s.zone config.compiler.tasks with
      | (.error e, _) => .error (.rejected job.name e)
      | (.ok report, after) => .ok (report, after)

theorem jobOutcome_eq_ok_iff {config : Config} {s : Surroundings} {created : Option String}
    {path : String} {read : Except FileFault String} {report : CompileReport} {after : Job} :
    jobOutcome config s created path read = .ok (report, after) ↔
      ∃ text job, read = .ok text ∧
        JobFile.load config.compiler s.origin created text = .ok job ∧
        job.compile s.zone config.compiler.tasks = (.ok report, after) := by
  cases read with
  | error fault => simp [jobOutcome]
  | ok text =>
    cases hload : JobFile.load config.compiler s.origin created text with
    | error fault => simp [jobOutcome, hload]
    | ok job =>
      cases hcompile : job.compile s.zone config.compiler.tasks with
      | mk result made => cases result <;> simp [jobOutcome, hload, hcompile]

theorem exists_jobOutcome (config : Config) (s : Surroundings) {created : Option String}
    {path text : String} {read : Except FileFault String} {job : Job} (hread : read = .ok text)
    (hload : JobFile.load config.compiler s.origin created text = .ok job)
    (h : (job.compile s.zone config.compiler.tasks).1.isOk = true) :
    ∃ report after, jobOutcome config s created path read = .ok (report, after) ∧
      job.compile s.zone config.compiler.tasks = (.ok report, after) := by
  cases hmade : job.compile s.zone config.compiler.tasks with
  | mk result after =>
    rw [hmade] at h
    cases result with
    | error e => cases h
    | ok report => exact ⟨report, after, jobOutcome_eq_ok_iff.2 ⟨_, _, hread, hload, hmade⟩, rfl⟩

theorem result_compiledJob (config : Config) (s : Surroundings) (created : Option String)
    (path : String) (d : Directory) :
    d.result (compiledJob config s created path) =
      jobOutcome config s created path (d.read path) := by
  have hread : d.result (Files.read path) = d.read path := rfl
  rw [compiledJob, (readsOnly_loadJob config s.origin created path).result_bind, loadJob,
    (readsOnly_read path).result_bind, hread]
  cases d.read path with
  | error fault => rfl
  | ok text =>
    have hpure : d.result (pure ((JobFile.load config.compiler s.origin created text).mapError
        (Failure.badJobFile path))) = (JobFile.load config.compiler s.origin created text).mapError
        (Failure.badJobFile path) := rfl
    simp only [hpure, jobOutcome]
    cases JobFile.load config.compiler s.origin created text with
    | error fault => rfl
    | ok job =>
      have hok : (Except.ok job).mapError (Failure.badJobFile path) = .ok job := rfl
      simp only [hok]
      cases job.compile s.zone config.compiler.tasks with
      | mk report after => cases report <;> rfl

variable {s : Surroundings} {choice : Option String} {path : String} {created : Option String}
  {d : Directory} {config : Config} {f : Failure}

/-- What `compile` writes or prints in a directory, or why there is no such text. -/
def document (s : Surroundings) (choice : Option String) (path : String) (created : Option String)
    (d : Directory) : Except Failure String :=
  match d.result (loadConfig s.home choice) with
  | .error f => .error f
  | .ok config =>
    (jobOutcome config s created path (d.read path)).map fun made =>
      made.2.emission config.pretty made.1.warnings

theorem document_of_ok (h : d.result (loadConfig s.home choice) = .ok config) :
    document s choice path created d =
      (jobOutcome config s created path (d.read path)).map fun made =>
        made.2.emission config.pretty made.1.warnings := by
  rw [document, h]

/-- The text is there before anything is written. -/
theorem run_compile (s : Surroundings) (choice : Option String) (path : String)
    (created out : Option String) (d : Directory) :
    (compile s choice path created out : StateM Directory Outcome).run d =
      match document s choice path created d with
      | .error f => (finish "" (.error f), d)
      | .ok text =>
        let ended := (emit text out : StateM Directory (Except Failure String)).run d
        (finish "" ended.1, ended.2) := by
  rw [compile, (readsOnly_loadConfig s.home choice).run_bind, document]
  cases d.result (loadConfig s.home choice) with
  | error f => rfl
  | ok config =>
    simp only
    rw [(readsOnly_compiledJob config s created path).run_bind, result_compiledJob]
    cases jobOutcome config s created path (d.read path) <;> rfl

theorem run_compile_none (s : Surroundings) (choice : Option String) (path : String)
    (created : Option String) (d : Directory) :
    (compile s choice path created none : StateM Directory Outcome).run d =
      (finish "" (document s choice path created d), d) := by
  rw [run_compile]
  cases document s choice path created d <;> rfl

theorem result_compile_none (s : Surroundings) (choice : Option String) (path : String)
    (created : Option String) (d : Directory) :
    d.result (compile s choice path created none) =
      finish "" (document s choice path created d) := by
  rw [Directory.result, run_compile_none]

theorem readsOnly_compile (s : Surroundings) (choice : Option String) (path : String)
    (created : Option String) : ReadsOnly (compile s choice path created none) := by
  intro d
  rw [result_compile_none, run_compile_none]

theorem result_compile_of_error (h : d.result (loadConfig s.home choice) = .error f) :
    d.result (compile s choice path created none) = finish "" (.error f) := by
  rw [result_compile_none, document, h]

theorem result_compile_of_ok (h : d.result (loadConfig s.home choice) = .ok config) :
    d.result (compile s choice path created none) =
      finish "" ((jobOutcome config s created path (d.read path)).map fun made =>
        made.2.emission config.pretty made.1.warnings) := by
  rw [result_compile_none, document_of_ok h]

theorem readsOnly_validate (s : Surroundings) (choice : Option String) (path : String) :
    ReadsOnly (validate s choice path) := by
  refine (readsOnly_loadConfig s.home choice).bind fun loaded => ?_
  cases loaded with
  | error f => exact readsOnly_pure _
  | ok config =>
    refine (readsOnly_compiledJob config s none path).bind fun made => ?_
    cases made <;> exact readsOnly_pure _

theorem result_validate_of_error (h : d.result (loadConfig s.home choice) = .error f) :
    d.result (validate s choice path) = finish "" (.error f) := by
  rw [validate, (readsOnly_loadConfig s.home choice).result_bind, h]
  rfl

theorem result_validate_of_ok (h : d.result (loadConfig s.home choice) = .ok config) :
    d.result (validate s choice path) =
      finish ("Validating job file: " ++ Text.quote path ++ "\n")
        (do
          let made ← jobOutcome config s none path (d.read path)
          match FrameSet.parse made.2.settings.frames with
          | .error e => .error (.badFrames e)
          | .ok frames => .ok (summary made.1 made.2 frames)) := by
  rw [validate, (readsOnly_loadConfig s.home choice).result_bind, h]
  simp only
  rw [(readsOnly_compiledJob config s none path).result_bind, result_compiledJob]
  cases jobOutcome config s none path (d.read path) <;> rfl

end Cli
end RenderFarm

import Mathlib.Data.Set.Card
import RenderFarm.Proofs.Cli.Reading
import RenderFarm.Proofs.Job.Document
import RenderFarm.Proofs.Job.Loading
import RenderFarm.Proofs.Job.Outcome

/-! The dry run. `validate` does what `compile` does up to the writing, so that both fail alike; and
if they do not fail, what `validate` tells is what the job says that is read from the document of
`compile`. The two runs may differ in what they make up: another identifier, and another time, which
does not count for a job file that gives its own. -/
namespace RenderFarm

namespace FrameSet

/-- The compact form of a chunk selects the frames of the chunk. -/
theorem selects_text_iff {c : Chunk} (hc : c.first ≤ c.last) (hl : c.last ≤ maxFrame) {f : Nat} :
    Selects c.text f ↔ f ∈ c.toList := by
  have htokens : tokens c.text = [c.text.toList] :=
    Text.pieces_of_forall_not _ c.isToken_text.2 c.isToken_text.1
  have hnames := Chunk.names_text hc hl
  rw [Selects, htokens, Chunk.mem_toList]
  constructor
  · rintro ⟨t, ht, a, b, hab, hf⟩
    obtain rfl := List.mem_singleton.1 ht
    obtain ⟨rfl, rfl⟩ := hab.unique hnames
    exact hf
  · intro hf
    exact ⟨_, List.mem_singleton_self _, _, _, hnames, hf⟩

theorem ncard_mem (s : FrameSet) : {f | f ∈ s}.ncard = s.size := by
  have hnodup : s.toList.Nodup := (pairwise_lt_toList s).imp Nat.ne_of_lt
  have hset : {f | f ∈ s} = (s.toList.toFinset : Set Nat) := by
    ext f
    simp
  rw [hset, Set.ncard_coe_finset, List.toFinset_card_of_nodup hnodup, length_toList]

end FrameSet

namespace Task

/-- The identifier of the task says that it renders the frame. -/
def Covers (t : Task) (f : Nat) : Prop :=
  ∃ frames, t.id = "render-" ++ frames ∧ FrameSet.Selects frames f

theorem covers_iff {t : Task} {c : Chunk} (hid : t.id = renderId c) (hc : c.first ≤ c.last)
    (hl : c.last ≤ maxFrame) {f : Nat} : t.Covers f ↔ f ∈ c.toList := by
  rw [← FrameSet.selects_text_iff hc hl]
  constructor
  · rintro ⟨frames, hframes, hf⟩
    have htext : frames = c.text := by
      rw [hid, renderId] at hframes
      exact (String.append_right_inj _).1 hframes.symm
    exact htext ▸ hf
  · intro hf
    exact ⟨c.text, hid, hf⟩

/-- The tasks that are authored for a set cover the frames of the set. -/
theorem exists_covers_iff {options : TaskOptions} {settings : JobSettings} {path : String}
    {s : FrameSet} {n : Nat} {tasks : List Task} (hn : 0 < n)
    (h : author options settings path (s.cut n) = .ok tasks) (f : Nat) :
    (∃ t ∈ tasks, t.Covers f) ↔ f ∈ s := by
  obtain ⟨parent, file, -, rfl⟩ := author_eq_ok_iff.1 h
  have hcovers : ∀ c ∈ s.cut n,
      ((rendering options settings.format parent file (Path.basename path) c).Covers f ↔
        f ∈ c.toList) := by
    intro c hc
    have hbounds := FrameSet.bounds_of_mem_cut hn hc
    exact covers_iff rfl hbounds.1 hbounds.2.1
  rw [← FrameSet.mem_toList, ← FrameSet.flatMap_toList_cut hn, List.mem_flatMap]
  constructor
  · rintro ⟨t, ht, hf⟩
    obtain ⟨c, hc, rfl⟩ := List.mem_map.1 ht
    exact ⟨c, hc, (hcovers c hc).1 hf⟩
  · rintro ⟨c, hc, hf⟩
    exact ⟨_, List.mem_map.2 ⟨c, hc, rfl⟩, (hcovers c hc).2 hf⟩

end Task

namespace Cli

structure Summary where
  name : String
  format : String
  frames : String
  frameCount : Nat
  taskCount : Nat
  chunkSize : Int
  output : String
  placeholders : List String
  warnings : List String

namespace Summary

def lines (s : Summary) : List String :=
  ["✓ Job file is valid",
   "  Name: " ++ s.name,
   "  Format: " ++ s.format,
   "  Frames: " ++ s.frames ++ " (" ++ toString s.frameCount ++ " frames)",
   "  Chunks: " ++ toString s.taskCount ++ " of at most " ++ toString s.chunkSize,
   "  Output: " ++ s.output,
   "  Worker placeholders: " ++ ", ".intercalate s.placeholders] ++
  s.warnings.map fun warning => "  Warning: " ++ warning

def text (s : Summary) : String := String.join (s.lines.map (· ++ "\n"))

/-- The items that are told of a compiled job; `first` is the first of its tasks. -/
def of (report : CompileReport) (job : Job) (frames : FrameSet) (first : Task) : Summary where
  name := job.name
  format := job.settings.format.name
  frames := frames.text
  frameCount := frames.size
  taskCount := report.taskCount
  chunkSize := job.settings.effectiveChunkSize.toInt
  output := report.outputPath
  placeholders := first.command.placeholders
  warnings := report.warnings.map JobWarning.message

theorem summary_eq_text {job : Job} {first : Task} (h : job.tasks.head? = some first)
    (report : CompileReport) (frames : FrameSet) :
    summary report job frames = (of report job frames first).text := by
  have hwarnings : (report.warnings.map fun w => "  Warning: " ++ w.message) =
      (report.warnings.map JobWarning.message).map fun warning => "  Warning: " ++ warning := by
    rw [List.map_map]
    rfl
  rw [summary, h, hwarnings]
  rfl

/-- The summary tells what a job with its tasks and the texts of its warnings say. -/
structure Describes (s : Summary) (job : Job) (warnings : List String) : Prop where
  name : s.name = job.name
  format : s.format = job.settings.format.name
  frames : ∃ set, FrameSet.parse s.frames = .ok set ∧
    ∀ f, f ∈ set ↔ ∃ task ∈ job.tasks, task.Covers f
  frameCount : s.frameCount = {f | ∃ task ∈ job.tasks, task.Covers f}.ncard
  taskCount : s.taskCount = job.tasks.length
  chunkSize : s.chunkSize = job.settings.effectiveChunkSize.toInt
  output : job.settings.outputPath = some s.output
  placeholders : ∃ task, job.tasks.head? = some task ∧
    s.placeholders = task.command.placeholders
  warnings : s.warnings = warnings

theorem Describes.stored {s : Summary} {job : Job} {warnings : List String}
    (h : s.Describes job warnings) :
    s.Describes { job with settings := job.settings.stored } warnings where
  name := h.name
  format := h.format
  frames := h.frames
  frameCount := h.frameCount
  taskCount := h.taskCount
  chunkSize := h.chunkSize
  output := h.output
  placeholders := h.placeholders
  warnings := h.warnings

end Summary

/-- A job without tasks that compiles has the tasks that cover its frames, and the report counts
them and tells its output path. -/
theorem covers_of_compile {zone : Zone} {options : TaskOptions} {job after : Job}
    {report : CompileReport} (htasks : job.tasks = [])
    (h : job.compile zone options = (.ok report, after)) :
    ∃ frames, FrameSet.parse after.settings.frames = .ok frames ∧
      (∀ f, (∃ task ∈ after.tasks, task.Covers f) ↔ f ∈ frames) ∧
      report.taskCount = after.tasks.length ∧
      after.settings.outputPath = some report.outputPath := by
  have hall := Job.forall_holds_of_compile_eq_ok h
  obtain ⟨template, frames, tasks, -, hparse, hauthor, hok⟩ :=
    Job.compile_of_forall_holds zone options hall
  have hsize : 1 ≤ job.settings.effectiveChunkSize.toInt := hall .chunkSize
  rw [hok] at h
  cases h
  refine ⟨frames, hparse, fun f => ?_, ?_, rfl⟩
  · rw [htasks, List.nil_append]
    exact Task.exists_covers_iff (by omega) hauthor f
  · rw [htasks, List.nil_append]

theorem exists_summary {zone : Zone} {options : TaskOptions} {job after : Job}
    {report : CompileReport} (htasks : job.tasks = [])
    (h : job.compile zone options = (.ok report, after)) :
    ∃ (frames : FrameSet) (told : Summary), FrameSet.parse after.settings.frames = .ok frames ∧
      summary report after frames = told.text ∧
      told.Describes after (report.warnings.map JobWarning.message) := by
  obtain ⟨frames, hparse, hcovers, hcount, houtput⟩ := covers_of_compile htasks h
  obtain ⟨f, hf⟩ := FrameSet.exists_mem_of_parse hparse
  obtain ⟨t, ht, -⟩ := (hcovers f).2 hf
  obtain ⟨first, hfirst⟩ : ∃ first, after.tasks.head? = some first :=
    ⟨_, List.head?_eq_some_head (List.ne_nil_of_mem ht)⟩
  refine ⟨frames, .of report after frames first, hparse, Summary.summary_eq_text hfirst _ _, ?_⟩
  exact
    { name := rfl
      format := rfl
      frames := ⟨frames, FrameSet.parse_text (FrameSet.runs_ne_nil_of_parse hparse),
        fun f => (hcovers f).symm⟩
      frameCount := by
        simp only [hcovers]
        exact (FrameSet.ncard_mem frames).symm
      taskCount := hcount
      chunkSize := rfl
      output := houtput
      placeholders := ⟨first, hfirst, rfl⟩
      warnings := rfl }

/-- Surroundings at another time, in which another identifier is made up. -/
def Surroundings.again (s : Surroundings) (id : JobId) (now : Instant) : Surroundings :=
  { s with origin := { s.origin with id, now } }

variable {config : Config} {s : Surroundings} {path : String} {read : Except FileFault String}

/-- What is made up for a job counts for its identifier only, if the time of its creation is given.
-/
theorem jobOutcome_again {created : Option String} (id : JobId) (now : Instant)
    (h : ∀ text file, read = .ok text → JobFile.parse? text = some file →
      (created <|> file.created).isSome) :
    jobOutcome config (s.again id now) created path read =
      (jobOutcome config s created path read).map fun made => (made.1, made.2.withId id) := by
  cases read with
  | error fault => rfl
  | ok text =>
    cases hp : JobFile.parse? text with
    | none => simp [jobOutcome, JobFile.load, hp, Except.map]
    | some file =>
      have hload : JobFile.load config.compiler (s.again id now).origin created text =
          (JobFile.load config.compiler s.origin created text).map (Job.withId id) := by
        rw [JobFile.load_again s.origin (s.again id now).origin hp rfl]
        simp only [h text file rfl hp, if_true, Surroundings.again]
        rfl
      simp only [jobOutcome, hload]
      cases hjob : JobFile.load config.compiler s.origin created text with
      | error fault => rfl
      | ok job =>
        have hzone : (s.again id now).zone = s.zone := rfl
        simp only [Except.map, hzone, Job.compile_withId (JobFile.status_of_load hjob)]
        cases job.compile s.zone config.compiler.tasks with
        | mk report after => cases report <;> rfl

theorem summary_withId (id : JobId) (report : CompileReport) (job : Job) (frames : FrameSet) :
    summary report (job.withId id) frames = summary report job frames := rfl

/-- The dry run on a job file ends as the real one: both fail and report the same, or the dry run
gives a summary of the job and the warnings that are read from the document of the real one. -/
def Outcome.AgreesWith (path : String) (dry real : Outcome) : Prop :=
  (dry.code = 1 ∧ real.code = 1 ∧ dry.report = real.report) ∨
    (dry.code = 0 ∧ real.code = 0 ∧ dry.report = real.report ∧
      ∃ (member : Datum) (job : Job) (warnings : List String) (told : Summary),
        Json.parse? real.stdout =
          some (.table [("job", member), ("warnings", .list (warnings.map .text))]) ∧
        Job.ofDatum? member = some job ∧
        dry.stdout = "Validating job file: " ++ Text.quote path ++ "\n" ++ told.text ∧
        told.Describes job warnings)

/-- A time of creation that a job file gives is one that documents reach. -/
theorem yearInRange_of_load {config : CompilerConfig} {origin : JobOrigin} {text : String}
    {job : Job} (hload : JobFile.load config origin none text = .ok job)
    (hcreated : ∀ file, JobFile.parse? text = some file → file.created.isSome) :
    Rfc3339.yearInRange (job.created.clockTime 0).date.year = true := by
  obtain ⟨file, time, hparse, -, htime, rfl⟩ := JobFile.load_eq_ok_iff.1 hload
  obtain ⟨given, hgiven⟩ := Option.isSome_iff_exists.1 (hcreated file hparse)
  rw [JobFile.creation, hgiven] at htime
  exact Rfc3339.yearInRange_of_read? (JobFile.readCreated_eq_ok_iff.1 htime)

theorem result_validate_agreesWith {choice : Option String} (id : JobId) (now : Instant)
    {d : Directory} (h : ∀ text file, d.read path = .ok text → JobFile.parse? text = some file →
      file.created.isSome) :
    (d.result (validate (s.again id now) choice path)).AgreesWith path
      (d.result (compile s choice path none none)) := by
  cases hconfig : d.result (loadConfig s.home choice) with
  | error f =>
    have hagain : d.result (loadConfig (s.again id now).home choice) = .error f := hconfig
    rw [result_compile_of_error hconfig, result_validate_of_error hagain]
    exact .inl ⟨rfl, rfl, rfl⟩
  | ok config =>
    have hagain : d.result (loadConfig (s.again id now).home choice) = .ok config := hconfig
    rw [result_compile_of_ok hconfig, result_validate_of_ok hagain, jobOutcome_again id now h]
    cases hmade : jobOutcome config s none path (d.read path) with
    | error f => exact .inl ⟨rfl, rfl, rfl⟩
    | ok made =>
      obtain ⟨report, after⟩ := made
      obtain ⟨text, job, hread, hload, hcompile⟩ := jobOutcome_eq_ok_iff.1 hmade
      obtain ⟨_, _, -, -, -, hsubmit⟩ := JobFile.load_eq_ok_iff.1 hload
      have htasks : job.tasks = [] := by rw [hsubmit]; rfl
      obtain ⟨frames, told, hparse, htext, hdescribes⟩ := exists_summary htasks hcompile
      have hframes : FrameSet.parse (after.withId id).settings.frames = .ok frames := hparse
      have hyear : Rfc3339.yearInRange (after.created.clockTime 0).date.year = true := by
        rw [Job.created_of_compile hcompile]
        exact yearInRange_of_load hload fun file => h text file hread
      simp only [Except.map, bind, Except.bind, hframes, summary_withId, htext]
      exact .inr ⟨rfl, rfl, rfl, after.toDatum, _, report.warnings.map JobWarning.message, told,
        by rw [finish, String.empty_append, Job.parse?_emission]; rfl,
        Job.ofDatum?_toDatum hyear, rfl, hdescribes.stored⟩

/-- A dry run and a real run on a job file that gives the time of its creation agree, whatever is in
the directory and whatever configuration is chosen, and neither changes a file. If they fail they
report the same; if not, what the dry run tells is what the job says that is read from the document
of the real run. -/
theorem validate_agrees_with_compile {real dry : List String} {choice : Option String}
    (id : JobId) (now : Instant) {d : Directory}
    (hreal : parse real = .ok (.compile choice path none none))
    (hdry : parse dry = .ok (.validate choice path))
    (hcreated : ∀ text file, d.read path = .ok text → JobFile.parse? text = some file →
      file.created.isSome) :
    ∃ made told : Outcome,
      (run s real : StateM Directory Outcome).run d = (made, d) ∧
      (run (s.again id now) dry : StateM Directory Outcome).run d = (told, d) ∧
      told.AgreesWith path made := by
  refine ⟨d.result (compile s choice path none none),
    d.result (validate (s.again id now) choice path), ?_, ?_,
    result_validate_agreesWith id now hcreated⟩
  · rw [run, hreal]
    exact readsOnly_compile s choice path none d
  · rw [run, hdry]
    exact readsOnly_validate (s.again id now) choice path d

theorem eq_result_compile {args : List String} {choice : Option String} {made : Outcome}
    {d : Directory} (hargs : parse args = .ok (.compile choice path none none))
    (hrun : (run s args : StateM Directory Outcome).run d = (made, d)) :
    made = d.result (compile s choice path none none) := by
  rw [run, hargs] at hrun
  rw [Directory.result, hrun]

def shotDirectory : Directory := .ofFiles [("shot.toml", JobFile.exrText "")]

def farmSurroundings : Surroundings := ⟨Zone.utc, "/home/farm", JobFile.farmOrigin .nil⟩

theorem read_shotDirectory : shotDirectory.read "shot.toml" = .ok (JobFile.exrText "") := by
  decide +kernel

theorem code_compile_shotDirectory :
    (shotDirectory.result (compile farmSurroundings none "shot.toml" none none)).code = 0 := by
  have hconfig : shotDirectory.result (loadConfig farmSurroundings.home none) = .ok {} := by
    decide +kernel
  have hcompile : (JobFile.exrJob.compile Zone.utc {}).1.isOk = true := by
    decide +kernel
  obtain ⟨report, after, houtcome, -⟩ :=
    exists_jobOutcome {} farmSurroundings read_shotDirectory JobFile.load_exrText hcompile
  rw [result_compile_of_ok hconfig, houtcome]
  rfl

/-- A job file that is there is compiled and described; one that is not there is reported by both. -/
theorem validate_agrees_with_compile_shotDirectory :
    (∃ made told : Outcome,
      (run farmSurroundings ["compile", "shot.toml"] : StateM Directory Outcome).run
        shotDirectory = (made, shotDirectory) ∧
      (run (farmSurroundings.again JobFile.setBitsId (.ofSeconds 60))
        ["validate", "shot.toml"] : StateM Directory Outcome).run
        shotDirectory = (told, shotDirectory) ∧
      made.code = 0 ∧ told.AgreesWith "shot.toml" made) ∧
    ∃ made told : Outcome,
      (run farmSurroundings ["compile", "lost.toml"] : StateM Directory Outcome).run
        shotDirectory = (made, shotDirectory) ∧
      (run (farmSurroundings.again JobFile.setBitsId (.ofSeconds 60))
        ["validate", "lost.toml"] : StateM Directory Outcome).run
        shotDirectory = (told, shotDirectory) ∧
      told.AgreesWith "lost.toml" made ∧ made.code = 1 ∧
      made.report = "Error: Failed to read job file: \"lost.toml\"\n\nCaused by:\n    " ++
        "No such file or directory (os error 2)\n" := by
  constructor
  · have hreal : parse ["compile", "shot.toml"] = .ok (.compile none "shot.toml" none none) := by
      decide +kernel
    have hdry : parse ["validate", "shot.toml"] = .ok (.validate none "shot.toml") := by
      decide +kernel
    have hcreated : ∀ text file, shotDirectory.read "shot.toml" = .ok text →
        JobFile.parse? text = some file → file.created.isSome := by
      intro text file hread hparse
      obtain rfl := Except.ok.inj (read_shotDirectory.symm.trans hread)
      obtain rfl := Option.some.inj (JobFile.parse?_exrText.symm.trans hparse)
      rfl
    obtain ⟨made, told, hmade, htold, hagree⟩ :=
      validate_agrees_with_compile JobFile.setBitsId (.ofSeconds 60) hreal hdry hcreated
    refine ⟨made, told, hmade, htold, ?_, hagree⟩
    rw [eq_result_compile hreal hmade, code_compile_shotDirectory]
  · have hreal : parse ["compile", "lost.toml"] = .ok (.compile none "lost.toml" none none) := by
      decide +kernel
    have hdry : parse ["validate", "lost.toml"] = .ok (.validate none "lost.toml") := by
      decide +kernel
    have hlost : shotDirectory.read "lost.toml" = .error .notFound := by decide +kernel
    have hcreated : ∀ text file, shotDirectory.read "lost.toml" = .ok text →
        JobFile.parse? text = some file → file.created.isSome := by
      intro text file hread
      cases hlost.symm.trans hread
    have hresult : shotDirectory.result (compile farmSurroundings none "lost.toml" none none) =
        { code := 1
          report := "Error: Failed to read job file: \"lost.toml\"\n\nCaused by:\n    " ++
            "No such file or directory (os error 2)\n" } := by
      decide +kernel
    obtain ⟨made, told, hmade, htold, hagree⟩ :=
      validate_agrees_with_compile JobFile.setBitsId (.ofSeconds 60) hreal hdry hcreated
    obtain rfl := (eq_result_compile hreal hmade).trans hresult
    exact ⟨_, told, hmade, htold, hagree, rfl, rfl⟩

end Cli
end RenderFarm

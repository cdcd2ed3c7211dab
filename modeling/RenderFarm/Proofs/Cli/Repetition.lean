import RenderFarm.Proofs.Cli.Emitting
import RenderFarm.Proofs.Job.PathOrder
import RenderFarm.Proofs.Time.Spelling

/-! Compiling again at the time that was printed. The document of a job gives the time of its
creation as a text that is read as the same instant, if it falls in a year of four digits. So the
same job comes of its file when that text is passed back, at whatever time this is done. -/
namespace RenderFarm

namespace JobFile

variable {config : CompilerConfig} {origin : JobOrigin} {created : Option String} {job : Job}
  {text emitted : String} {t : Instant}

theorem readCreated_toRfc3339 (h : (t.clockTime 0).date.HasPlainYear) :
    readCreated t.toRfc3339 = .ok t :=
  readCreated_eq_ok_iff.2 (Rfc3339.read?_toRfc3339 h)

/-- A job is loaded again at its own time of creation, however that was come by. -/
theorem load_created (h : load config origin created text = .ok job)
    (hread : readCreated emitted = .ok job.created) (id : JobId) (now : Instant) :
    load config { origin with id, now } (some emitted) text = .ok (job.withId id) := by
  obtain ⟨file, time, hparse, hcheck, -, rfl⟩ := load_eq_ok_iff.1 h
  exact load_eq_ok_iff.2 ⟨file, time, hparse, hcheck, hread, rfl⟩

theorem created_of_load (h : load config origin (some emitted) text = .ok job) :
    readCreated emitted = .ok job.created := by
  obtain ⟨file, time, -, -, hcreation, rfl⟩ := load_eq_ok_iff.1 h
  exact hcreation

end JobFile

namespace Job

theorem resolvedPath_withOutputPath_congr {a b : Job} (h : a.created = b.created) (zone : Zone)
    (template : String) :
    (a.withOutputPath template).resolvedPath zone =
      (b.withOutputPath template).resolvedPath zone := by
  have hcontext : (a.withOutputPath template).context zone =
      (b.withOutputPath template).context zone := by
    simp only [context, withOutputPath, h]
  simp only [resolvedPath, hcontext]
  rfl

end Job

namespace Cli

def createdOf? (text : String) : Option String := do
  let document ← Json.parse? text
  let job ← document.fields? true ["job"] >>= List.head? >>= id
  let created ← job.fields? true ["created"] >>= List.head? >>= id
  created.text?

theorem createdOf?_emission (job : Job) (pretty : Bool) (warnings : List JobWarning) :
    createdOf? (job.emission pretty warnings) = some job.created.toRfc3339 := by
  rw [createdOf?, Job.emission, Json.parse?_render (job.isWritable_document warnings)]
  rfl

variable {config : Config} {s : Surroundings} {choice created : Option String}
  {path emitted : String} {read : Except FileFault String} {report : CompileReport} {job : Job}
  {d : Directory}

theorem jobOutcome_created (h : jobOutcome config s created path read = .ok (report, job))
    (hread : JobFile.readCreated emitted = .ok job.created) (id : JobId) (now : Instant) :
    jobOutcome config (s.again id now) (some emitted) path read = .ok (report, job.withId id) := by
  obtain ⟨text, loaded, hfile, hload, hcompile⟩ := jobOutcome_eq_ok_iff.1 h
  rw [Job.created_of_compile hcompile] at hread
  refine jobOutcome_eq_ok_iff.2
    ⟨text, loaded.withId id, hfile, JobFile.load_created hload hread id now, ?_⟩
  have hzone : (s.again id now).zone = s.zone := rfl
  rw [hzone, Job.compile_withId (JobFile.status_of_load hload), hcompile]

/-- Runs of `compile` print the job. At the time of creation that they print of it, they print it
again with another identifier, whatever time it is. -/
structure Repeats (config : Config) (s : Surroundings) (choice : Option String) (path : String)
    (created : Option String) (d : Directory) (report : CompileReport) (job : Job) : Prop where
  printed : ∀ args, parse args = .ok (.compile choice path created none) →
    (run s args : StateM Directory Outcome).run d =
      ({ code := 0, stdout := job.emission config.pretty report.warnings }, d)
  again : ∃ emitted, createdOf? (job.emission config.pretty report.warnings) = some emitted ∧
    ∀ id now args, parse args = .ok (.compile choice path (some emitted) none) →
      (run (s.again id now) args : StateM Directory Outcome).run d =
        ({ code := 0, stdout := (job.withId id).emission config.pretty report.warnings }, d)

theorem repeats_of_jobOutcome (hconfig : d.result (loadConfig s.home choice) = .ok config)
    (h : jobOutcome config s created path (d.read path) = .ok (report, job))
    (hyear : (job.created.clockTime 0).date.HasPlainYear) :
    Repeats config s choice path created d report job where
  printed args hargs := by
    refine run_printing hargs ?_
    rw [document_of_ok hconfig, h]
    rfl
  again := by
    refine ⟨_, createdOf?_emission job config.pretty report.warnings, fun id now args hargs => ?_⟩
    have hagain : d.result (loadConfig (s.again id now).home choice) = .ok config := hconfig
    refine run_printing hargs ?_
    rw [document_of_ok hagain,
      jobOutcome_created h (JobFile.readCreated_toRfc3339 hyear) id now]
    rfl

/-- A time of creation that can be given by hand, in a year of four digits, is read again from what
is printed of its job. Given by hand, what is printed resolves a template to the same path, and lets
a run repeat the job. The instants that can be given are those that a text in the format tells, up
to whole nanoseconds; so texts that tell the same are read as one instant. -/
theorem created_survives_emission :
    (∀ text t, JobFile.readCreated text = .ok t → (t.clockTime 0).date.HasPlainYear →
      ∀ (job : Job) pretty warnings, job.created = t →
        ∃ emitted, createdOf? (job.emission pretty warnings) = some emitted ∧
          JobFile.readCreated emitted = .ok t ∧
          ∀ config origin file again,
            JobFile.load config origin (some emitted) file = .ok again →
            ∀ zone template, (again.withOutputPath template).resolvedPath zone =
              (job.withOutputPath template).resolvedPath zone) ∧
    (∀ config s choice path created d report job,
      d.result (loadConfig s.home choice) = .ok config →
      jobOutcome config s created path (d.read path) = .ok (report, job) →
      (job.created.clockTime 0).date.HasPlainYear →
      Repeats config s choice path created d report job) ∧
    (∀ text t, JobFile.readCreated text = .ok t ↔ ∃ m, Rfc3339.Tells text m ∧ m.IsReadAs t) ∧
    ∀ text other m, Rfc3339.Tells text m → Rfc3339.Tells other m →
      ∃ t, JobFile.readCreated text = .ok t ∧ JobFile.readCreated other = .ok t := by
  refine ⟨?_, fun _ _ _ _ _ _ _ _ => repeats_of_jobOutcome, ?_, ?_⟩
  · rintro text t - hyear job pretty warnings rfl
    have hread := JobFile.readCreated_toRfc3339 hyear
    refine ⟨_, createdOf?_emission job pretty warnings, hread, ?_⟩
    intro config origin file again hload zone template
    have hcreated : again.created = job.created :=
      Except.ok.inj ((JobFile.created_of_load hload).symm.trans hread)
    exact Job.resolvedPath_withOutputPath_congr hcreated zone template
  · intro text t
    rw [JobFile.readCreated_eq_ok_iff, Rfc3339.read?_eq_some_iff]
  · intro text other m htext hother
    obtain ⟨t, ht, hmoment⟩ := htext.exists_read?
    have hagain : Rfc3339.read? other = some t := Rfc3339.read?_eq_some_iff.2 ⟨m, hother, hmoment⟩
    exact ⟨t, JobFile.readCreated_eq_ok_iff.2 ht, JobFile.readCreated_eq_ok_iff.2 hagain⟩

/-- The middle of the leap second at the end of 2016, in lower case and with a zero at its end. -/
def leapSecondInUtc : Rfc3339.Spelling where
  date := ⟨2016, 12, 31⟩
  mark := 't'
  hour := 23
  minute := 59
  second := 60
  fraction := ['5', '0']
  offset := .letter 'z' (.inr rfl)
  plainYear := by decide
  isMark := by decide
  isDigit := List.all_eq_true.1 rfl
  isValid := by decide

def leapSecondAhead : Rfc3339.Spelling where
  date := ⟨2017, 1, 1⟩
  mark := ' '
  hour := 5
  minute := 29
  second := 60
  fraction := ['5']
  offset := .signed '+' 5 30 (.inl rfl) (by decide)
  plainYear := by decide
  isMark := by decide
  isDigit := List.all_eq_true.1 rfl
  isValid := by decide

theorem moment_leapSecondAhead : leapSecondAhead.moment = leapSecondInUtc.moment :=
  Rfc3339.Moment.ext (by decide +kernel) rfl (Rfc3339.fractionValue_append_zero ['5']).symm

def leapSecondShot : Job := { JobFile.exrJob with created := Job.leapSecond2016 }

theorem load_leapSecondShot {text : String}
    (h : JobFile.readCreated text = .ok Job.leapSecond2016) :
    JobFile.load {} (JobFile.farmOrigin .nil) (some text) (JobFile.exrText "") =
      .ok leapSecondShot :=
  JobFile.load_eq_ok_iff.2 ⟨JobFile.exrFile, Job.leapSecond2016, JobFile.parse?_exrText,
    by decide +kernel, h, by decide +kernel⟩

theorem readCreated_leapSecond :
    JobFile.readCreated "2016-12-31t23:59:60.50z" = .ok Job.leapSecond2016 := by
  decide +kernel

theorem exists_jobOutcome_leapSecondShot :
    ∃ report job, jobOutcome {} farmSurroundings (some "2016-12-31t23:59:60.50z") "shot.toml"
      (shotDirectory.read "shot.toml") = .ok (report, job) ∧ job.created = Job.leapSecond2016 := by
  have hcompile : (leapSecondShot.compile Zone.utc {}).1.isOk = true := by decide +kernel
  obtain ⟨report, after, houtcome, hmade⟩ := exists_jobOutcome {} farmSurroundings
    read_shotDirectory (load_leapSecondShot readCreated_leapSecond) hcompile
  exact ⟨report, after, houtcome, Job.created_of_compile hmade⟩

theorem created_survives_emission_leapSecond :
    (∃ emitted again,
      createdOf? ((Job.fiveFramesAt Job.leapSecond2016).emission true []) = some emitted ∧
      JobFile.load {} (JobFile.farmOrigin .nil) (some emitted) (JobFile.exrText "") = .ok again ∧
      (again.withOutputPath "/render/\x7btimestamp\x7d").resolvedPath (.fixed 330) =
        ((Job.fiveFramesAt Job.leapSecond2016).withOutputPath
          "/render/\x7btimestamp\x7d").resolvedPath (.fixed 330)) ∧
    (∃ (job : Job) (warnings : List JobWarning),
      (run farmSurroundings ["compile", "shot.toml", "--created", "2016-12-31t23:59:60.50z"] :
        StateM Directory Outcome).run shotDirectory =
          ({ code := 0, stdout := job.emission false warnings }, shotDirectory) ∧
      (run (farmSurroundings.again JobFile.setBitsId (.ofSeconds 60))
          ["compile", "shot.toml", "--created", "2016-12-31T23:59:60.500Z"] :
        StateM Directory Outcome).run shotDirectory =
          ({ code := 0, stdout := (job.withId JobFile.setBitsId).emission false warnings },
            shotDirectory)) ∧
    ∃ t, JobFile.readCreated "2016-12-31t23:59:60.50z" = .ok t ∧
      JobFile.readCreated "2017-01-01 05:29:60.5+05:30" = .ok t := by
  obtain ⟨hreads, hrepeats, -, hsame⟩ := created_survives_emission
  have hyear : (Job.leapSecond2016.clockTime 0).date.HasPlainYear := by decide
  have htext : Job.leapSecond2016.toRfc3339 = "2016-12-31T23:59:60.500Z" := by decide +kernel
  refine ⟨?_, ?_, ?_⟩
  · obtain ⟨emitted, hemitted, hread, hresolved⟩ :=
      hreads _ _ readCreated_leapSecond hyear (Job.fiveFramesAt Job.leapSecond2016) true [] rfl
    have hload := load_leapSecondShot hread
    exact ⟨emitted, leapSecondShot, hemitted, hload, hresolved _ _ _ _ hload _ _⟩
  · obtain ⟨report, job, hmade, hcreated⟩ := exists_jobOutcome_leapSecondShot
    have hconfig : shotDirectory.result (loadConfig farmSurroundings.home none) = .ok {} := by
      decide +kernel
    have hargs : parse ["compile", "shot.toml", "--created", "2016-12-31t23:59:60.50z"] =
        .ok (.compile none "shot.toml" (some "2016-12-31t23:59:60.50z") none) := by
      decide +kernel
    have hagain : parse ["compile", "shot.toml", "--created", "2016-12-31T23:59:60.500Z"] =
        .ok (.compile none "shot.toml" (some "2016-12-31T23:59:60.500Z") none) := by
      decide +kernel
    have hprinted : createdOf? (job.emission false report.warnings) =
        some "2016-12-31T23:59:60.500Z" := by
      rw [createdOf?_emission, hcreated, htext]
    have hrun := hrepeats _ _ _ _ _ _ _ _ hconfig hmade (by rw [hcreated]; exact hyear)
    obtain ⟨emitted, hemitted, hruns⟩ := hrun.again
    obtain rfl : emitted = "2016-12-31T23:59:60.500Z" :=
      Option.some.inj (hemitted.symm.trans hprinted)
    exact ⟨job, report.warnings, hrun.printed _ hargs, hruns _ _ _ hagain⟩
  · exact hsame _ _ _ ⟨leapSecondInUtc, by decide +kernel, rfl⟩
      ⟨leapSecondAhead, by decide +kernel, moment_leapSecondAhead⟩

end Cli
end RenderFarm

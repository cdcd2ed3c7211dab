import Mathlib.Order.WellFounded
import RenderFarm.Proofs.Job.Stages
import RenderFarm.Proofs.Template.Reading

/-! What becomes of a job that is compiled. Seven conditions decide, and they are examined in a
fixed order: if all hold the job gets its tasks, and else it is left as the stages before the first
fault have made it, and the fault is told by its kind. -/
namespace RenderFarm

/-- What a job has to fulfil to be compiled, in the order of examination. -/
inductive CompileCondition
  | received | image | template | frames | chunkSize | chunkLimit | staging
  deriving DecidableEq

namespace CompileCondition

def rank : CompileCondition → Nat
  | received => 0
  | image => 1
  | template => 2
  | frames => 3
  | chunkSize => 4
  | chunkLimit => 5
  | staging => 6

def Holds (job : Job) : CompileCondition → Prop
  | received => job.status = .received
  | image => job.settings.format.isVideo = false
  | template => ∃ text, job.settings.outputPath = some text ∧ text ≠ ""
  | frames => ∃ s, FrameSet.parse job.settings.frames = .ok s
  | chunkSize => 1 ≤ job.settings.effectiveChunkSize.toInt
  | chunkLimit => ∀ s, FrameSet.parse job.settings.frames = .ok s →
      (s.cut job.settings.effectiveChunkSize.toInt.toNat).length ≤ maxChunks
  | staging => 2 ≤ (Path.segments job.settings.blendfile).length

/-- The kind of error that tells that the condition does not hold. -/
def kind : CompileCondition → String
  | received => "invalid_settings"
  | image => "unsupported_format"
  | template => "unresolved_render_output_path"
  | frames => "invalid_frame_expression"
  | chunkSize => "invalid_chunk_size"
  | chunkLimit => "invalid_frame_expression"
  | staging => "invalid_settings"

/-- The condition fails, and those that are examined before it hold. -/
def IsFirstFault (job : Job) (c : CompileCondition) : Prop :=
  ¬c.Holds job ∧ ∀ d : CompileCondition, d.rank < c.rank → d.Holds job

theorem holds_or_exists_firstFault (job : Job) :
    (∀ c : CompileCondition, c.Holds job) ∨ ∃ c, IsFirstFault job c := by
  by_cases h : ∀ c : CompileCondition, c.Holds job
  · exact Or.inl h
  · right
    obtain ⟨c, hc, hmin⟩ :=
      (measure rank).wf.has_min {c : CompileCondition | ¬c.Holds job} (not_forall.1 h)
    refine ⟨c, hc, fun d hd => ?_⟩
    by_contra hnot
    exact hmin d hnot hd

end CompileCondition

namespace Job

variable {zone : Zone} {options : TaskOptions} {job : Job}

/-- The job as the first fault leaves it. -/
def leftover (zone : Zone) (job : Job) : CompileCondition → Job
  | .received => job
  | .image => job.reject
  | .template => job.reject
  | .frames | .chunkSize | .chunkLimit | .staging =>
    { job with
      status := .rejected
      settings :=
        { job.settings with outputPath := job.settings.outputPath.map (job.substituted zone) } }

@[simp] theorem tasks_leftover (c : CompileCondition) :
    (job.leftover zone c).tasks = job.tasks := by
  cases c <;> rfl

@[simp] theorem id_leftover (c : CompileCondition) : (job.leftover zone c).id = job.id := by
  cases c <;> rfl

@[simp] theorem name_leftover (c : CompileCondition) : (job.leftover zone c).name = job.name := by
  cases c <;> rfl

@[simp] theorem created_leftover (c : CompileCondition) :
    (job.leftover zone c).created = job.created := by
  cases c <;> rfl

theorem status_leftover {c : CompileCondition} (h : c ≠ .received) :
    (job.leftover zone c).status = .rejected := by
  cases c with
  | received => exact absurd rfl h
  | image | template | frames | chunkSize | chunkLimit | staging => rfl

theorem reject_withOutputPath (c : CompileCondition) {template : String}
    (h : job.HasTemplate template) (hc : CompileCondition.template.rank < c.rank) :
    (job.withOutputPath (job.substituted zone template)).reject = job.leftover zone c := by
  have hleft : job.leftover zone .staging =
      (job.withOutputPath (job.substituted zone template)).reject := by
    rw [leftover, h.1]
    rfl
  cases c with
  | received => exact absurd hc (by decide)
  | image => exact absurd hc (by decide)
  | template => exact absurd hc (by decide)
  | frames | chunkSize | chunkLimit | staging => exact hleft.symm

theorem exists_reachesCutting {c : CompileCondition}
    (before : ∀ d : CompileCondition, d.rank < c.rank → d.Holds job)
    (hc : CompileCondition.template.rank < c.rank) : ∃ template, job.ReachesCutting template := by
  obtain ⟨template, ht⟩ := before .template hc
  have hr : job.status = .received := before .received (Nat.lt_trans (by decide) hc)
  have hi : job.settings.format.isVideo = false := before .image (Nat.lt_trans (by decide) hc)
  exact ⟨template, hr, hi, ht⟩

theorem leftover_of_late_fault {c : CompileCondition} {template : String} {e : JobError}
    (hcut : job.ReachesCutting template) (hc : CompileCondition.template.rank < c.rank)
    (hk : e.kind = c.kind)
    (h : job.compile zone options =
      (.error e, (job.withOutputPath (job.substituted zone template)).reject)) :
    ∃ e : JobError, e.kind = c.kind ∧
      job.compile zone options = (.error e, job.leftover zone c) := by
  rw [reject_withOutputPath c hcut.hasTemplate hc] at h
  exact ⟨e, hk, h⟩

/-- A job that fails a condition is left as the stages before have made it. -/
theorem compile_of_firstFault (zone : Zone) (options : TaskOptions) {c : CompileCondition}
    (h : CompileCondition.IsFirstFault job c) :
    ∃ e : JobError, e.kind = c.kind ∧
      job.compile zone options = (.error e, job.leftover zone c) := by
  obtain ⟨hfail, before⟩ := h
  cases c with
  | received => exact ⟨.badSettings _, rfl, compile_of_not_received hfail⟩
  | image =>
    have hv : job.settings.format.isVideo = true := by simpa [CompileCondition.Holds] using hfail
    exact ⟨.videoFormat _, rfl, compile_of_video (before .received (by decide)) hv⟩
  | template =>
    have hn : ∀ text, ¬job.HasTemplate text := fun text ht => hfail ⟨text, ht⟩
    exact ⟨.noOutputPath, rfl,
      compile_of_no_template (before .received (by decide)) (before .image (by decide)) hn⟩
  | frames =>
    obtain ⟨template, hcut⟩ := exists_reachesCutting before (by decide)
    cases hp : FrameSet.parse job.settings.frames with
    | ok s => exact absurd ⟨s, hp⟩ hfail
    | error e =>
      obtain ⟨fault, rfl⟩ := FrameSet.exists_fault_of_parse_eq_error hp
      exact leftover_of_late_fault hcut (by decide) rfl (compile_of_parse_error hcut hp)
  | chunkSize =>
    obtain ⟨template, hcut⟩ := exists_reachesCutting before (by decide)
    obtain ⟨s, hp⟩ := before .frames (by decide)
    have hc := s.chunks_of_lt (Int.not_le.1 hfail)
    exact leftover_of_late_fault hcut (by decide) rfl (compile_of_chunks_error hcut hp hc)
  | chunkLimit =>
    obtain ⟨template, hcut⟩ := exists_reachesCutting before (by decide)
    obtain ⟨s, hp⟩ := before .frames (by decide)
    have hlimit : maxChunks < (s.cut job.settings.effectiveChunkSize.toInt.toNat).length := by
      refine Nat.not_le.1 fun hle => hfail ?_
      intro s' hp'
      rw [hp] at hp'
      cases hp'
      exact hle
    have hc := FrameSet.chunks_of_limit (before .chunkSize (by decide)) hlimit
    exact leftover_of_late_fault hcut (by decide) rfl (compile_of_chunks_error hcut hp hc)
  | staging =>
    obtain ⟨template, hcut⟩ := exists_reachesCutting before (by decide)
    obtain ⟨s, hp⟩ := before .frames (by decide)
    have hc := FrameSet.chunks_of_le (before .chunkSize (by decide))
      (before .chunkLimit (by decide) s hp)
    exact leftover_of_late_fault hcut (by decide) rfl
      (compile_of_author_error hcut hp hc (Task.author_of_unstageable (Nat.not_le.1 hfail)))

/-- A job that fulfils all conditions gets one task for each chunk of its frames. -/
theorem compile_of_forall_holds (zone : Zone) (options : TaskOptions)
    (h : ∀ c : CompileCondition, c.Holds job) :
    ∃ template s tasks, job.settings.outputPath = some template ∧
      FrameSet.parse job.settings.frames = .ok s ∧
      Task.author options job.settings (job.substituted zone template)
        (s.cut job.settings.effectiveChunkSize.toInt.toNat) = .ok tasks ∧
      job.compile zone options =
        (.ok ⟨tasks.length, job.substituted zone template, job.settings.findings⟩,
          { job with
            status := .emitted
            tasks := job.tasks ++ tasks
            settings :=
              { job.settings with outputPath := some (job.substituted zone template) } }) := by
  obtain ⟨template, hcut⟩ : ∃ template, job.ReachesCutting template :=
    exists_reachesCutting (c := .staging) (fun d _ => h d) (by decide)
  obtain ⟨s, hp⟩ := h .frames
  have hc := FrameSet.chunks_of_le (h .chunkSize) (h .chunkLimit s hp)
  obtain ⟨tasks, ha⟩ := Task.exists_author_eq_ok (h .staging)
  exact ⟨template, s, tasks, hcut.hasTemplate.1, hp, ha, compile_of_author_ok hcut hp hc ha⟩

theorem of_compile_eq_error {e : JobError} {after : Job}
    (h : job.compile zone options = (.error e, after)) :
    ∃ c, CompileCondition.IsFirstFault job c ∧ e.kind = c.kind ∧ after = job.leftover zone c := by
  obtain hall | ⟨c, hc⟩ := CompileCondition.holds_or_exists_firstFault job
  · obtain ⟨_, _, _, _, _, _, hok⟩ := compile_of_forall_holds zone options hall
    rw [hok] at h
    cases h
  · obtain ⟨e', hk, he⟩ := compile_of_firstFault zone options hc
    rw [he] at h
    cases h
    exact ⟨c, hc, hk, rfl⟩

theorem forall_holds_of_compile_eq_ok {report : CompileReport} {after : Job}
    (h : job.compile zone options = (.ok report, after)) (c : CompileCondition) : c.Holds job := by
  obtain hall | ⟨d, hd⟩ := CompileCondition.holds_or_exists_firstFault job
  · exact hall c
  · obtain ⟨e, _, he⟩ := compile_of_firstFault zone options hd
    rw [he] at h
    cases h

theorem created_of_compile {report : CompileReport} {after : Job}
    (h : job.compile zone options = (.ok report, after)) : after.created = job.created := by
  have hall := forall_holds_of_compile_eq_ok h
  obtain ⟨_, _, _, -, -, -, hok⟩ := compile_of_forall_holds zone options hall
  rw [hok] at h
  cases h
  rfl

/-- The path of a job is its template with the time of creation in the places for it. -/
theorem substituted_of_isReading (zone : Zone) (job : Job) {template : Template} {text : String}
    (htext : template.toList = text.toList) (h : template.IsReading) :
    job.substituted zone text =
      String.ofList (template.lead ++ template.slots.flatMap fun slot =>
        (if String.ofList slot.name = "timestamp" then (job.created.stamp zone).toList
          else Template.placeholderText slot.name) ++ slot.trail) := by
  have hfilling : ∀ name,
      Template.filling (Context.empty.define "timestamp" (job.created.stamp zone)) name =
        if String.ofList name = "timestamp" then (job.created.stamp zone).toList
        else Template.placeholderText name := by
    intro name
    rw [Template.filling, Context.value?_define]
    by_cases hname : String.ofList name = "timestamp"
    · simp only [if_pos hname]
    · simp only [if_neg hname, Context.value?_empty]
  simp only [substituted, h.substitute_eq htext, Template.fill, hfilling]

/-- A job compiles if and only if it fulfils all conditions. Otherwise the first that fails tells
the kind of the error. Success determines the job and the report in all their parts; the path is
what the template's reading gives with the time of creation in its places for that. -/
theorem compile_decision (zone : Zone) (options : TaskOptions) (job : Job) :
    ((∃ report, (job.compile zone options).1 = .ok report) ↔
      ∀ c : CompileCondition, c.Holds job) ∧
    (∀ c, CompileCondition.IsFirstFault job c →
      ∃ e : JobError, (job.compile zone options).1 = .error e ∧ e.kind = c.kind) ∧
    ∀ report after, job.compile zone options = (.ok report, after) →
      ∃ text template path frames tasks,
        job.settings.outputPath = some text ∧
        Template.toList template = text.toList ∧ template.IsReading ∧
        path = String.ofList (template.lead ++ template.slots.flatMap fun slot =>
          (if String.ofList slot.name = "timestamp" then (job.created.stamp zone).toList
            else Template.placeholderText slot.name) ++ slot.trail) ∧
        FrameSet.parse job.settings.frames = .ok frames ∧
        Task.author options after.settings path
          (frames.cut job.settings.effectiveChunkSize.toInt.toNat) = .ok tasks ∧
        after =
          { job with
            status := .emitted
            tasks := job.tasks ++ tasks
            settings := { job.settings with outputPath := some path } } ∧
        report =
          { taskCount := tasks.length
            outputPath := path
            warnings :=
              if job.settings.format.isFfmpegIncompatible then [.noPreview job.settings.format]
              else [] } := by
  refine ⟨⟨?_, ?_⟩, ?_, ?_⟩
  · rintro ⟨report, hok⟩ c
    exact forall_holds_of_compile_eq_ok (Prod.ext hok rfl) c
  · intro hall
    obtain ⟨_, _, _, _, _, _, hok⟩ := compile_of_forall_holds zone options hall
    exact ⟨_, congrArg Prod.fst hok⟩
  · intro c hc
    obtain ⟨e, hk, he⟩ := compile_of_firstFault zone options hc
    exact ⟨e, congrArg Prod.fst he, hk⟩
  · intro report after h
    have hall := forall_holds_of_compile_eq_ok h
    obtain ⟨text, s, tasks, ht, hp, ha, hok⟩ := compile_of_forall_holds zone options hall
    rw [hok] at h
    cases h
    have htext := Template.toList_ofList text.toList
    have hreading := Template.isReading_ofList text.toList
    have hpath := substituted_of_isReading zone job htext hreading
    exact ⟨text, _, _, s, tasks, ht, htext, hreading, hpath, hp, ha, rfl, rfl⟩

def fiveFrames (blendfile : String) : Job :=
  submit JobId.nil "shot" (.ofSeconds 1679652300)
    { frames := "1-5", chunkSize := some 2, outputRoot := "/render", pathComponents := 0
      outputPath := some "/render/anim/\x7btimestamp\x7d/######", blendfile, jobname := "anim"
      filename := none, fps := none, format := ⟨"PNG"⟩, imageExtension := ".png"
      hasPreviews := none }

/-- A job that fulfils all conditions gets three tasks and the path of the time it was created. -/
theorem compile_decision_fiveFrames :
    ∃ report after, (fiveFrames "/jobs/shotA/scene.blend").compile Zone.utc {} =
        (.ok report, after) ∧
      after.status = .emitted ∧ after.tasks.map Task.id = ["render-1-2", "render-3-4", "render-5"] ∧
      after.settings.outputPath = some "/render/anim/2023-03-24_100500/######" ∧
      report = ⟨3, "/render/anim/2023-03-24_100500/######", []⟩ := by
  obtain ⟨hiff, -, hsuccess⟩ := compile_decision Zone.utc {} (fiveFrames "/jobs/shotA/scene.blend")
  have hparse : FrameSet.parse "1-5" = .ok ⟨[⟨1, 5, by decide, by decide⟩], by decide⟩ := by
    decide +kernel
  have hall : ∀ c : CompileCondition, c.Holds (fiveFrames "/jobs/shotA/scene.blend") := by
    intro c
    cases c with
    | received | image => rfl
    | template => exact ⟨_, rfl, by decide⟩
    | frames => exact ⟨_, hparse⟩
    | chunkSize => exact show (1 : Int) ≤ 2 by decide
    | chunkLimit =>
      intro s hs
      obtain rfl := Except.ok.inj (hparse.symm.trans hs)
      decide
    | staging => exact show 2 ≤ (Path.segments "/jobs/shotA/scene.blend").length by decide +kernel
  obtain ⟨report, hreport⟩ := hiff.2 hall
  obtain ⟨text, template, path, frames, tasks, htext, hlist, hreading, hpath, hframes, hauthor,
    hafter, rfl⟩ := hsuccess report _ (Prod.ext hreport rfl)
  obtain rfl := Option.some.inj htext
  obtain rfl := Except.ok.inj (hparse.symm.trans hframes)
  have htemplate :
      template = ⟨"/render/anim/".toList, [⟨"timestamp".toList, "/######".toList⟩]⟩ := by
    rw [← hreading.ofList_toList, hlist]
    decide +kernel
  subst htemplate
  obtain rfl : path = "/render/anim/2023-03-24_100500/######" := hpath.trans (by decide +kernel)
  obtain ⟨parent, file, -, rfl⟩ := Task.author_eq_ok_iff.1 hauthor
  exact ⟨_, _, Prod.ext hreport hafter, rfl, rfl, rfl, rfl⟩

/-- A failed compilation changes neither the tasks nor what identifies the job. A job that was
received is rejected, and its output path is the resolved one just when the fault came later than
the resolution; no other setting changes. -/
theorem compile_failure_keeps {zone : Zone} {options : TaskOptions} {job after : Job} {e : JobError}
    (h : job.compile zone options = (.error e, after)) :
    after.tasks = job.tasks ∧ after.id = job.id ∧ after.name = job.name ∧
    after.created = job.created ∧
    (job.status ≠ .received → after = job) ∧
    (job.status = .received →
      after.status = .rejected ∧
      ∃ c, CompileCondition.IsFirstFault job c ∧ e.kind = c.kind ∧
        (c ∈ [.image, .template] ∧ after.settings = job.settings ∨
          c ∈ [.frames, .chunkSize, .chunkLimit, .staging] ∧
            ∃ template, job.settings.outputPath = some template ∧
              after.settings =
                { job.settings with
                  outputPath := some
                    ((Context.empty.define "timestamp" (job.created.stamp zone)).substitute
                      template) })) := by
  obtain ⟨c, hc, hk, rfl⟩ := of_compile_eq_error h
  refine ⟨tasks_leftover c, id_leftover c, name_leftover c, created_leftover c, ?_, ?_⟩
  · intro hn
    cases c with
    | received => rfl
    | image | template | frames | chunkSize | chunkLimit | staging =>
      exact absurd (hc.2 .received (by decide)) hn
  · intro hr
    have hne : c ≠ .received := by
      rintro rfl
      exact hc.1 hr
    refine ⟨status_leftover hne, c, hc, hk, ?_⟩
    cases c with
    | received => exact absurd rfl hne
    | image | template => exact Or.inl ⟨by decide, rfl⟩
    | frames | chunkSize | chunkLimit | staging =>
      obtain ⟨template, ht, _⟩ := hc.2 .template (by decide)
      refine Or.inr ⟨by decide, template, ht, ?_⟩
      rw [leftover, ht]
      rfl

/-- A blend file without a directory is found last, after the path was resolved. -/
theorem compile_failure_keeps_fiveFrames :
    ∃ after, (fiveFrames "scene.blend").compile Zone.utc {} =
        (.error (.badSettings (.unstageable "scene.blend")), after) ∧
      after.settings.outputPath = some "/render/anim/2023-03-24_100500/######" ∧
      after.status = .rejected ∧ after.tasks = [] := by
  have h : (fiveFrames "scene.blend").compile Zone.utc {} =
      (.error (.badSettings (.unstageable "scene.blend")),
        ((fiveFrames "scene.blend").withOutputPath "/render/anim/2023-03-24_100500/######").reject)
      := by decide +kernel
  have hkeeps := compile_failure_keeps h
  exact ⟨_, h, rfl, (hkeeps.2.2.2.2.2 rfl).1, hkeeps.1⟩

end Job
end RenderFarm

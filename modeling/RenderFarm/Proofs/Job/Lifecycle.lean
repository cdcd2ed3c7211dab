import Mathlib.Data.List.Induction
import RenderFarm.Proofs.Job.Outcome

/-! The life of a job. Whatever is done to a job that was submitted, and in whatever order, it is
received until it is compiled for the first time, and from then on it is emitted or rejected for
good. Its tasks are those that were handed in and, if it is emitted, those that its one successful
compilation authored, in the order in which they came. -/
namespace RenderFarm

/-- What can be done to a job. All that it was submitted with can be changed at any time; its status
and its tasks change by the other operations only. -/
inductive JobOperation where
  | setId (id : JobId)
  | setName (name : String)
  | setCreated (created : Instant)
  | setSettings (settings : JobSettings)
  | deriveSettings
  | resolvePath
  | addTask (task : Task)
  | compile (options : TaskOptions)

namespace JobOperation

/-- The job after the operation; one that fails leaves it as the operation itself says. -/
def apply (zone : Zone) (job : Job) : JobOperation → Job
  | setId id => { job with id }
  | setName name => { job with name }
  | setCreated created => { job with created }
  | setSettings settings => { job with settings }
  | deriveSettings => { job with settings := job.settings.derive }
  | resolvePath =>
    match job.resolve zone with
    | .ok resolved => resolved
    | .error _ => job
  | addTask task => job.addTask task
  | compile options => (job.compile zone options).2

def handedIn : JobOperation → List Task
  | addTask task => [task]
  | _ => []

end JobOperation

namespace Job

def run (zone : Zone) (job : Job) (ops : List JobOperation) : Job :=
  ops.foldl (fun job op => op.apply zone job) job

def Compiles (zone : Zone) (options : TaskOptions) (job : Job) : Prop :=
  ∃ report, (job.compile zone options).1 = .ok report

/-- The tasks that the settings of the job and the time of its creation call for. -/
def authoredTasks (zone : Zone) (options : TaskOptions) (job : Job) :
    Except JobError (List Task) := do
  let path ← job.resolvedPath zone
  let frames ← FrameSet.parse job.settings.frames
  let chunks ← frames.chunks job.settings.effectiveChunkSize.toInt
  Task.author options job.settings path chunks

variable {zone : Zone} {options : TaskOptions} {job : Job} {ops before : List JobOperation}

theorem run_append (job : Job) (ops more : List JobOperation) :
    job.run zone (ops ++ more) = (job.run zone ops).run zone more := by
  rw [run, List.foldl_append]
  rfl

theorem run_concat (job : Job) (ops : List JobOperation) (op : JobOperation) :
    job.run zone (ops ++ [op]) = op.apply zone (job.run zone ops) :=
  run_append job ops [op]

/-- A compilation that succeeds gives the job the tasks that its settings call for. -/
theorem exists_authored_of_compiles (h : job.Compiles zone options) :
    ∃ block, job.authoredTasks zone options = .ok block ∧
      (job.compile zone options).2.status = .emitted ∧
      (job.compile zone options).2.tasks = job.tasks ++ block := by
  obtain ⟨report, hreport⟩ := h
  have hall := forall_holds_of_compile_eq_ok (Prod.ext hreport rfl)
  obtain ⟨template, s, tasks, ht, hp, ha, hok⟩ := compile_of_forall_holds zone options hall
  obtain ⟨text, htext, hne⟩ := hall .template
  obtain rfl : template = text := Option.some.inj (ht.symm.trans htext)
  have hpath : job.resolvedPath zone = .ok (job.substituted zone template) :=
    resolvedPath_of_hasTemplate ⟨ht, hne⟩
  have hchunks := FrameSet.chunks_of_le (hall .chunkSize) (hall .chunkLimit s hp)
  refine ⟨tasks, ?_, ?_, ?_⟩
  · simp only [authoredTasks, hpath, hp, hchunks, bind, Except.bind]
    exact ha
  · rw [hok]
  · rw [hok]

theorem compile_of_not_compiles (hr : job.status = .received) (h : ¬job.Compiles zone options) :
    (job.compile zone options).2.status = .rejected ∧
      (job.compile zone options).2.tasks = job.tasks := by
  cases hresult : (job.compile zone options).1 with
  | ok report => exact absurd ⟨report, hresult⟩ h
  | error e =>
    have hcompile : job.compile zone options = (.error e, (job.compile zone options).2) :=
      Prod.ext hresult rfl
    obtain ⟨c, hc, -, hafter⟩ := of_compile_eq_error hcompile
    have hne : c ≠ .received := by
      rintro rfl
      exact hc.1 hr
    rw [hafter]
    exact ⟨status_leftover hne, tasks_leftover c⟩

theorem received_of_compiles (h : job.Compiles zone options) : job.status = .received := by
  by_contra hr
  obtain ⟨report, hreport⟩ := h
  rw [compile_of_not_received hr] at hreport
  cases hreport

end Job

namespace JobOperation

/-- What an operation does to the status and the tasks of a job: it hands in tasks at most, or it is
the compilation that settles the job. -/
inductive Effect (zone : Zone) (job after : Job) : JobOperation → Prop
  | kept {op : JobOperation} (status : after.status = job.status)
      (tasks : after.tasks = job.tasks ++ op.handedIn)
      (fails : ∀ options, op = compile options → ¬job.Compiles zone options) :
      Effect zone job after op
  | rejected {options : TaskOptions} (received : job.status = .received)
      (status : after.status = .rejected) (tasks : after.tasks = job.tasks)
      (fails : ¬job.Compiles zone options) : Effect zone job after (compile options)
  | emitted {options : TaskOptions} {block : List Task} (received : job.status = .received)
      (status : after.status = .emitted) (compiles : job.Compiles zone options)
      (authored : job.authoredTasks zone options = .ok block)
      (tasks : after.tasks = job.tasks ++ block) : Effect zone job after (compile options)

theorem effect_apply (zone : Zone) (job : Job) (op : JobOperation) :
    Effect zone job (op.apply zone job) op := by
  cases op with
  | setId | setName | setCreated | setSettings | deriveSettings =>
    exact .kept rfl (List.append_nil _).symm (by simp)
  | resolvePath =>
    have hstatus : (apply zone job resolvePath).status = job.status ∧
        (apply zone job resolvePath).tasks = job.tasks := by
      cases hpath : job.resolvedPath zone <;>
        simp [apply, Job.resolve, hpath, Except.map, Job.withOutputPath]
    exact .kept hstatus.1 (by simpa [handedIn] using hstatus.2) (by simp)
  | addTask task => exact .kept rfl rfl (by simp)
  | compile options =>
    by_cases hr : job.status = .received
    · by_cases hc : job.Compiles zone options
      · obtain ⟨block, hblock, hstatus, htasks⟩ := Job.exists_authored_of_compiles hc
        exact .emitted hr hstatus hc hblock htasks
      · obtain ⟨hstatus, htasks⟩ := Job.compile_of_not_compiles hr hc
        exact .rejected hr hstatus htasks hc
    · have hsame : apply zone job (compile options) = job := by
        rw [apply, Job.compile_of_not_received hr]
      refine .kept (by rw [hsame]) (by simp [hsame, handedIn]) fun _ _ hc => ?_
      exact hr (Job.received_of_compiles hc)

/-- Only a compilation of a received job changes the status. -/
theorem of_status_apply_ne {zone : Zone} {job : Job} {op : JobOperation}
    (h : (op.apply zone job).status ≠ job.status) :
    job.status = .received ∧ (∃ options, op = compile options) ∧
      (op.apply zone job).status ∈ [.emitted, .rejected] := by
  cases effect_apply zone job op with
  | kept status => exact absurd status h
  | rejected received status => exact ⟨received, ⟨_, rfl⟩, by simp [status]⟩
  | emitted received status => exact ⟨received, ⟨_, rfl⟩, by simp [status]⟩

end JobOperation

namespace Job

variable {zone : Zone} {options : TaskOptions} {job : Job} {ops before : List JobOperation}

/-- In a run of operations, the one after `before` is a compilation that succeeds. -/
def SucceedsAfter (zone : Zone) (job : Job) (ops before : List JobOperation) : Prop :=
  ∃ options, before ++ [.compile options] <+: ops ∧ (job.run zone before).Compiles zone options

def handedIn (ops : List JobOperation) : List Task := ops.flatMap JobOperation.handedIn

theorem run_of_not_received (zone : Zone) (h : job.status ≠ .received) (ops : List JobOperation) :
    (job.run zone ops).status = job.status ∧
      (job.run zone ops).tasks = job.tasks ++ handedIn ops := by
  induction ops generalizing job with
  | nil => simp [run, handedIn]
  | cons op ops ih =>
    have hrun : job.run zone (op :: ops) = (op.apply zone job).run zone ops := rfl
    rw [hrun]
    cases JobOperation.effect_apply zone job op with
    | kept status tasks fails =>
      have hsettled : (op.apply zone job).status ≠ .received := by rwa [status]
      obtain ⟨hstatus, htasks⟩ := ih hsettled
      refine ⟨hstatus.trans status, ?_⟩
      rw [htasks, tasks, List.append_assoc]
      rfl
    | rejected received => exact absurd received h
    | emitted received => exact absurd received h

theorem succeedsAfter_concat {op : JobOperation} :
    SucceedsAfter zone job (ops ++ [op]) before ↔
      SucceedsAfter zone job ops before ∨
        before = ops ∧
          ∃ options, op = .compile options ∧ (job.run zone ops).Compiles zone options := by
  constructor
  · rintro ⟨options, hprefix, hc⟩
    obtain heq | hprefix := List.prefix_concat_iff.1 hprefix
    · obtain ⟨rfl, hop⟩ := List.append_inj' heq rfl
      exact .inr ⟨rfl, options, (List.singleton_inj.1 hop).symm, hc⟩
    · exact .inl ⟨options, hprefix, hc⟩
  · rintro (⟨options, hprefix, hc⟩ | ⟨rfl, options, rfl, hc⟩)
    · exact ⟨options, hprefix.trans (List.prefix_append ops [op]), hc⟩
    · exact ⟨options, List.prefix_rfl, hc⟩

/-- How a run on a received job ends: no compilation succeeds, or one does and settles the job. -/
inductive Ending (zone : Zone) (job : Job) (ops : List JobOperation) : Prop
  | notEmitted (status : (job.run zone ops).status ∈ [.received, .rejected])
      (tasks : (job.run zone ops).tasks = job.tasks ++ handedIn ops)
      (fails : ∀ before, ¬SucceedsAfter zone job ops before)
  | emitted {before after : List JobOperation} {options : TaskOptions} {block : List Task}
      (split : ops = before ++ .compile options :: after)
      (compiles : (job.run zone before).Compiles zone options)
      (authored : (job.run zone before).authoredTasks zone options = .ok block)
      (status : (job.run zone ops).status = .emitted)
      (tasks : (job.run zone ops).tasks = job.tasks ++ handedIn before ++ block ++ handedIn after)

theorem ending_of_received (zone : Zone) (h : job.status = .received) (ops : List JobOperation) :
    Ending zone job ops := by
  induction ops using List.reverseRecOn with
  | nil =>
    refine .notEmitted (by simp [run, h]) (by simp [run, handedIn]) ?_
    rintro before ⟨options, hprefix, -⟩
    simp at hprefix
  | append_singleton ops op ih =>
    have heffect := JobOperation.effect_apply zone (job.run zone ops) op
    rw [← run_concat] at heffect
    have hhanded : handedIn (ops ++ [op]) = handedIn ops ++ op.handedIn := by simp [handedIn]
    cases ih with
    | notEmitted hstatus htasks hfails =>
      cases heffect with
      | kept status tasks fails =>
        refine .notEmitted (by rwa [status]) ?_ fun before hs => ?_
        · rw [tasks, htasks, hhanded, List.append_assoc]
        · obtain hs | ⟨rfl, options, rfl, hc⟩ := succeedsAfter_concat.1 hs
          · exact hfails before hs
          · exact fails options rfl hc
      | @rejected options received status tasks fails =>
        have hnothing : (JobOperation.compile options).handedIn = [] := rfl
        refine .notEmitted (by simp [status]) ?_ fun before hs => ?_
        · rw [tasks, htasks, hhanded, hnothing, List.append_nil]
        · obtain hs | ⟨rfl, options', hop, hc⟩ := succeedsAfter_concat.1 hs
          · exact hfails before hs
          · cases hop
            exact fails hc
      | emitted received status compiles authored tasks =>
        refine .emitted rfl compiles authored status ?_
        rw [tasks, htasks]
        simp [handedIn]
    | emitted hsplit hcompiles hauthored hstatus htasks =>
      have hsettled : (job.run zone ops).status ≠ .received := by simp [hstatus]
      cases heffect with
      | kept status tasks fails =>
        refine .emitted (by rw [hsplit, List.append_assoc, List.cons_append]) hcompiles hauthored
          (status.trans hstatus) ?_
        rw [tasks, htasks]
        simp [handedIn]
      | rejected received => exact absurd received hsettled
      | emitted received => exact absurd received hsettled

theorem SucceedsAfter.not_of_length_lt {later : List JobOperation}
    (h : SucceedsAfter zone job ops before) (hlt : before.length < later.length) :
    ¬SucceedsAfter zone job ops later := by
  rintro ⟨options', hlater, hc'⟩
  obtain ⟨options, hbefore, hc⟩ := h
  have hlength : (before ++ [JobOperation.compile options]).length ≤ later.length := by
    rw [List.length_append, List.length_singleton]
    exact hlt
  obtain ⟨between, rfl⟩ :=
    List.prefix_of_prefix_length_le hbefore ((List.prefix_append _ _).trans hlater) hlength
  obtain ⟨_, -, hemitted, -⟩ := exists_authored_of_compiles hc
  have hstatus : (job.run zone (before ++ [.compile options])).status = .emitted := by
    rw [run_concat]
    exact hemitted
  have hne : (job.run zone (before ++ [.compile options])).status ≠ .received := by simp [hstatus]
  have hsettled := (run_of_not_received zone hne between).1
  rw [← run_append, hstatus, received_of_compiles hc'] at hsettled
  cases hsettled

theorem SucceedsAfter.unique {other : List JobOperation} (h : SucceedsAfter zone job ops before)
    (h' : SucceedsAfter zone job ops other) : before = other := by
  have hlength : before.length = other.length := by
    rcases Nat.lt_trichotomy before.length other.length with hlt | heq | hgt
    · exact absurd h' (h.not_of_length_lt hlt)
    · exact heq
    · exact absurd h (h'.not_of_length_lt hgt)
  obtain ⟨_, hbefore, -⟩ := h
  obtain ⟨_, hother, -⟩ := h'
  have hprefix : before <+: other :=
    List.prefix_of_prefix_length_le ((List.prefix_append _ _).trans hbefore)
      ((List.prefix_append _ _).trans hother) hlength.le
  exact hprefix.eq_of_length hlength

theorem status_run_mem (zone : Zone) (h : job.status = .received) (ops : List JobOperation) :
    (job.run zone ops).status ∈ [.received, .emitted, .rejected] := by
  cases ending_of_received zone h ops with
  | notEmitted status =>
    simp only [List.mem_cons, List.not_mem_nil, or_false] at status ⊢
    exact status.imp_right .inr
  | emitted _ _ _ status => simp [status]

theorem handedIn_eq_nil (h : ∀ task, .addTask task ∉ ops) : handedIn ops = [] := by
  rw [handedIn, List.flatMap_eq_nil_iff]
  intro op hop
  cases op with
  | addTask task => exact absurd hop (h task)
  | setId | setName | setCreated | setSettings | deriveSettings | resolvePath | compile => rfl

/-- Without tasks that are handed in, a rejected job has none and an emitted one has those that the
compilation that succeeded called for. -/
theorem tasks_of_forall_not_addTask (hr : job.status = .received) (hempty : job.tasks = [])
    (hown : ∀ task, .addTask task ∉ ops) :
    ((job.run zone ops).status = .rejected → (job.run zone ops).tasks = []) ∧
      ((job.run zone ops).status = .emitted →
        ∃ before options, before ++ [.compile options] <+: ops ∧
          (job.run zone before).authoredTasks zone options = .ok (job.run zone ops).tasks) := by
  cases ending_of_received zone hr ops with
  | notEmitted status tasks =>
    rw [hempty, handedIn_eq_nil hown, List.nil_append] at tasks
    refine ⟨fun _ => tasks, fun hemitted => ?_⟩
    simp [hemitted] at status
  | @emitted before after options block split _ authored status tasks =>
    subst split
    have hbefore : handedIn before = [] := handedIn_eq_nil fun t ht => hown t (by simp [ht])
    have hafter : handedIn after = [] := handedIn_eq_nil fun t ht => hown t (by simp [ht])
    rw [hempty, hbefore, hafter, List.nil_append, List.nil_append, List.append_nil] at tasks
    refine ⟨fun hrejected => ?_, fun _ => ⟨before, options, by simp, ?_⟩⟩
    · rw [status] at hrejected
      cases hrejected
    · rw [authored, tasks]

/-- Whatever is done to a submitted job, it is received, emitted or rejected after each operation.
Only a compilation changes its status, and only that of a received job; at most one compilation
succeeds. The tasks are those that were handed in and, if the job is emitted, those that it called
for when that compilation was made, all in the order in which they came. -/
theorem run_submit (zone : Zone) (id : JobId) (name : String) (created : Instant)
    (settings : JobSettings) (ops : List JobOperation) :
    let start := submit id name created settings
    (∀ before, before <+: ops →
      (start.run zone before).status ∈ [.received, .emitted, .rejected]) ∧
    (∀ before op, before ++ [op] <+: ops →
      (start.run zone (before ++ [op])).status ≠ (start.run zone before).status →
        (start.run zone before).status = .received ∧ (∃ options, op = .compile options) ∧
          (start.run zone (before ++ [op])).status ∈ [.emitted, .rejected]) ∧
    (∀ before, before <+: ops → (start.run zone before).status ≠ .received →
      (start.run zone ops).status = (start.run zone before).status) ∧
    (∀ before other, SucceedsAfter zone start ops before →
      SucceedsAfter zone start ops other → before = other) ∧
    ((start.run zone ops).status ≠ .emitted ∧
        (∀ before, ¬SucceedsAfter zone start ops before) ∧
        (start.run zone ops).tasks = handedIn ops ∨
      (start.run zone ops).status = .emitted ∧
        ∃ before options after block, ops = before ++ .compile options :: after ∧
          (start.run zone before).Compiles zone options ∧
          (start.run zone before).authoredTasks zone options = .ok block ∧
          (start.run zone ops).tasks = handedIn before ++ block ++ handedIn after) ∧
    ((∀ task, .addTask task ∉ ops) →
      ((start.run zone ops).status = .rejected → (start.run zone ops).tasks = []) ∧
      ((start.run zone ops).status = .emitted →
        ∃ before options, before ++ [.compile options] <+: ops ∧
          (start.run zone before).authoredTasks zone options =
            .ok (start.run zone ops).tasks)) := by
  intro start
  have hnew : start.status = .received := rfl
  refine ⟨fun before _ => status_run_mem zone hnew before, ?_, ?_,
    fun _ _ => SucceedsAfter.unique, ?_, tasks_of_forall_not_addTask hnew rfl⟩
  · intro before op _ hchange
    rw [run_concat] at hchange ⊢
    exact JobOperation.of_status_apply_ne hchange
  · rintro before ⟨after, rfl⟩ hsettled
    rw [run_append]
    exact (run_of_not_received zone hsettled after).1
  · cases ending_of_received zone hnew ops with
    | notEmitted status tasks fails =>
      refine .inl ⟨fun hemitted => ?_, fails, tasks⟩
      simp [hemitted] at status
    | emitted split compiles authored status tasks =>
      exact .inr ⟨status, _, _, _, _, split, compiles, authored, tasks⟩

end Job
end RenderFarm

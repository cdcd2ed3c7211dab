import RenderFarm.Proofs.Job.Lifecycle
import RenderFarm.Proofs.Template.Staging
import RenderFarm.Proofs.Time.Calendar

/-! Resolving the output path before compilation. A resolved path takes the place of its template,
so that a later resolution starts from it. It has no placeholder of the creation time left and it is
not empty, and therefore every later resolution gives it again, the one in compilation included. -/
namespace RenderFarm
namespace Job

variable {zone : Zone} {options : TaskOptions} {job : Job} {template : String}

theorem braceFree_context (zone : Zone) (job : Job) : (job.context zone).BraceFree := by
  refine Context.braceFree_empty.define fun hbrace => ?_
  exact absurd (Instant.isStampChar_of_mem_stamp hbrace) (by decide)

theorem ne_empty_of_value?_context {name v : String}
    (h : (job.context zone).value? name = some v) : v ≠ "" := by
  rw [context, Context.value?_define] at h
  split at h
  · cases h
    exact mt String.toList_eq_nil_iff.2 (Instant.stamp_ne_empty zone job.created)
  · cases h

theorem substituted_withOutputPath (zone : Zone) (job : Job) (template : String) :
    (job.withOutputPath (job.substituted zone template)).substituted zone
      (job.substituted zone template) = job.substituted zone template :=
  Context.substitute_again (braceFree_context zone job) template

theorem HasTemplate.substituted (h : job.HasTemplate template) (zone : Zone) :
    (job.withOutputPath (job.substituted zone template)).HasTemplate
      (job.substituted zone template) :=
  ⟨rfl, Context.substitute_ne_empty (fun _ _ => ne_empty_of_value?_context) h.2⟩

theorem apply_resolvePath (h : job.HasTemplate template) :
    JobOperation.resolvePath.apply zone job =
      job.withOutputPath (job.substituted zone template) := by
  rw [JobOperation.apply, resolve, resolvedPath_of_hasTemplate h]
  rfl

def resolvedTimes (zone : Zone) (n : Nat) (job : Job) : Job :=
  job.run zone (List.replicate n .resolvePath)

/-- However often the path is resolved, the job is as after the first time. -/
theorem resolvedTimes_succ (h : job.HasTemplate template) (n : Nat) :
    job.resolvedTimes zone (n + 1) = job.withOutputPath (job.substituted zone template) := by
  induction n with
  | zero => exact apply_resolvePath h
  | succ n ih =>
    rw [resolvedTimes, List.replicate_succ', run_concat, ← resolvedTimes, ih,
      apply_resolvePath (h.substituted zone), substituted_withOutputPath]
    rfl

theorem resolvedPath_resolvedTimes (h : job.HasTemplate template) (n : Nat) :
    (job.resolvedTimes zone n).resolvedPath zone = .ok (job.substituted zone template) := by
  cases n with
  | zero => exact resolvedPath_of_hasTemplate h
  | succ n =>
    rw [resolvedTimes_succ h, resolvedPath_of_hasTemplate (h.substituted zone)]
    exact congrArg Except.ok (substituted_withOutputPath zone job template)

/-- Compilation makes of a resolved path what it makes of its template. -/
theorem compile_withOutputPath_substituted (h : job.ReachesCutting template) :
    (job.withOutputPath (job.substituted zone template)).compile zone options =
      job.compile zone options := by
  have hresolved : (job.withOutputPath (job.substituted zone template)).ReachesCutting
      (job.substituted zone template) :=
    ⟨h.received, h.image, h.hasTemplate.substituted zone⟩
  rw [compile_of_reachesCutting hresolved, compile_of_reachesCutting h, substituted_withOutputPath]
  rfl

/-- The output path of a received job with a template can be resolved any number of times before the
job is compiled. Each time gives the same path, and the report or the error of the compilation is as
without them; so is the job afterwards, unless it is rejected for a video format. -/
theorem compile_after_resolutions (hreceived : job.status = .received)
    (hpath : job.settings.outputPath = some template) (hne : template ≠ "") (zone : Zone)
    (options : TaskOptions) (n : Nat) :
    (∃ path, ∀ k < n, (job.resolvedTimes zone k).resolvedPath zone = .ok path) ∧
      ((job.resolvedTimes zone n).compile zone options).1 = (job.compile zone options).1 ∧
      (job.settings.format.isVideo = false →
        ((job.resolvedTimes zone n).compile zone options).2 = (job.compile zone options).2) := by
  have h : job.HasTemplate template := ⟨hpath, hne⟩
  refine ⟨⟨_, fun k _ => resolvedPath_resolvedTimes h k⟩, ?_⟩
  cases n with
  | zero => exact ⟨rfl, fun _ => rfl⟩
  | succ n =>
    rw [resolvedTimes_succ h]
    cases himage : job.settings.format.isVideo with
    | true =>
      have hresolved : (job.withOutputPath (job.substituted zone template)).status = .received :=
        hreceived
      have hvideo : (job.withOutputPath (job.substituted zone template)).settings.format.isVideo =
          true := himage
      rw [compile_of_video hresolved hvideo, compile_of_video hreceived himage]
      exact ⟨rfl, fun hfalse => nomatch hfalse⟩
    | false =>
      rw [compile_withOutputPath_substituted ⟨hreceived, himage, h⟩]
      exact ⟨rfl, fun _ => rfl⟩

def openBraceFrames : Job :=
  (fiveFrames "/jobs/shotA/scene.blend").withOutputPath
    "/render/\x7b\x7d\x7b\x7btimestamp\x7d\x7btimestamp\x7d/######"

theorem compile_after_resolutions_openBrace :
    (∃ path, ∀ k < 3, (openBraceFrames.resolvedTimes Zone.utc k).resolvedPath Zone.utc =
        .ok path) ∧
      ((openBraceFrames.resolvedTimes Zone.utc 3).compile Zone.utc {}).1 =
        .ok ⟨3, "/render/\x7b\x7d\x7b\x7btimestamp\x7d2023-03-24_100500/######", []⟩ ∧
      ((openBraceFrames.resolvedTimes Zone.utc 3).compile Zone.utc {}).2 =
        (openBraceFrames.compile Zone.utc {}).2 := by
  have hreport : (openBraceFrames.compile Zone.utc {}).1 =
      .ok ⟨3, "/render/\x7b\x7d\x7b\x7btimestamp\x7d2023-03-24_100500/######", []⟩ := by
    decide +kernel
  have hreceived : openBraceFrames.status = .received := rfl
  have hpath : openBraceFrames.settings.outputPath =
      some "/render/\x7b\x7d\x7b\x7btimestamp\x7d\x7btimestamp\x7d/######" := rfl
  obtain ⟨hpaths, hresult, hafter⟩ :=
    compile_after_resolutions hreceived hpath (by decide) Zone.utc {} 3
  exact ⟨hpaths, hresult.trans hreport, hafter (by decide +kernel)⟩

end Job
end RenderFarm

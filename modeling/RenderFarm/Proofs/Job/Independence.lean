import RenderFarm.Proofs.Job.CreationTime

/-! What the tasks of a job depend on. The renderer is told of a blend file by two names, and of the
images by the last name of the output path, which derivation makes the frame number whatever texts
stand before it; and expressions that select the same frames are cut into the same chunks. So jobs
that agree on what is rendered get the same tasks, however they are named and wherever their output
goes. -/
namespace RenderFarm

namespace JobSettings

/-- Both settings call for the same pictures: the same frames in chunks of the same size, from blend
files with the same staged names, in a format with one name on the command line. -/
structure RendersAlike (a b : JobSettings) : Prop where
  frames : ∀ f, FrameSet.Selects a.frames f ↔ FrameSet.Selects b.frames f
  chunkSize : a.effectiveChunkSize = b.effectiveChunkSize
  staged : ∃ parent file, [parent, file] <:+ Path.segments a.blendfile ∧
    [parent, file] <:+ Path.segments b.blendfile
  format : a.format.cliName = b.format.cliName

end JobSettings

namespace Task

theorem rendering_congr {format other : OutputFormat} (h : format.cliName = other.cliName)
    (options : TaskOptions) (parent file outputName : String) (chunk : Chunk) :
    rendering options format parent file outputName chunk =
      rendering options other parent file outputName chunk := by
  simp only [rendering, renderCommand, h]

end Task

namespace Job

variable {zone : Zone} {options : TaskOptions} {job after : Job} {report : CompileReport}

/-- The images of a derived job are named by the frame number, whether or not the texts before it
let the creation time into the path. -/
theorem basename_substituted_derivedPath (zone : Zone) (job : Job) (s : JobSettings) :
    Path.basename (job.substituted zone s.derivedPath) = JobSettings.frameNumberPattern := by
  by_cases h : Template.Closes s.parentPath.toList
  · exact Path.basename_of_suffix (segments_substituted_of_closes zone job h)
  · exact Path.basename_of_suffix (segments_substituted_of_not_closes zone job h)

/-- The tasks of a derived job are told by its frames, its chunk size, the staged names and the
format. -/
theorem tasks_of_compile_derived (h : job.derived.compile zone options = (.ok report, after)) :
    ∃ frames parent file, FrameSet.parse job.settings.frames = .ok frames ∧
      [parent, file] <:+ Path.segments job.settings.blendfile ∧
      after.tasks = job.tasks ++
        (frames.cut job.settings.effectiveChunkSize.toInt.toNat).map
          (Task.rendering options job.settings.format parent file
            JobSettings.frameNumberPattern) := by
  have hall := forall_holds_of_compile_eq_ok h
  obtain ⟨template, frames, tasks, ht, hp, ha, hok⟩ := compile_of_forall_holds zone options hall
  obtain rfl : job.settings.derivedPath = template := Option.some.inj ht
  obtain ⟨parent, file, hstaged, rfl⟩ := Task.author_eq_ok_iff.1 ha
  rw [basename_substituted_derivedPath] at hok
  rw [hok] at h
  cases h
  exact ⟨frames, parent, file, hp, Path.parentAndFile?_eq_some_iff.1 hstaged, rfl⟩

/-- Two derived jobs without tasks that are compiled with the same options get the same tasks if
their settings call for the same pictures. Nothing else that the jobs say counts: not their
identifiers, names and times, not where their output goes, and no brace or separator in those texts;
nor does it count in which time zone either was compiled. -/
theorem tasks_eq_of_rendersAlike {zone elsewhere : Zone} {job other after otherAfter : Job}
    {report otherReport : CompileReport}
    (hjob : job.derived.compile zone options = (.ok report, after))
    (hother : other.derived.compile elsewhere options = (.ok otherReport, otherAfter))
    (htasks : job.tasks = []) (hotherTasks : other.tasks = [])
    (h : job.settings.RendersAlike other.settings) : after.tasks = otherAfter.tasks := by
  obtain ⟨frames, parent, file, hframes, hstaged, hafter⟩ := tasks_of_compile_derived hjob
  obtain ⟨otherFrames, otherParent, otherFile, hotherFrames, hotherStaged, hotherAfter⟩ :=
    tasks_of_compile_derived hother
  have hset : frames = otherFrames := by
    rw [FrameSet.eq_iff_forall_mem_iff]
    intro f
    rw [FrameSet.mem_iff_selects hframes, FrameSet.mem_iff_selects hotherFrames, h.frames]
  have hnames : parent = otherParent ∧ file = otherFile := by
    obtain ⟨p, f, hp, hp'⟩ := h.staged
    have hleft := Path.parentAndFile?_eq_some_iff.2 hp
    have hright := Path.parentAndFile?_eq_some_iff.2 hp'
    rw [Path.parentAndFile?_eq_some_iff.2 hstaged] at hleft
    rw [Path.parentAndFile?_eq_some_iff.2 hotherStaged, ← hleft] at hright
    simpa [eq_comm] using hright
  obtain ⟨rfl, rfl⟩ := hnames
  rw [hafter, hotherAfter, htasks, hotherTasks, hset, h.chunkSize]
  refine congrArg _ (List.map_congr_left fun chunk _ => ?_)
  exact Task.rendering_congr h.format options parent file _ chunk

def fiveTargaFrames : Job :=
  let job := fiveFramesNamed "shot"
  { job with settings := { job.settings with format := ⟨"TARGA"⟩ } }

def fiveMovedFrames : Job :=
  submit (.ofRandom (List.replicate 16 255)) "night run" (.ofSeconds 60)
    { frames := "4-5, 3 1-2,2", chunkSize := some 2, outputRoot := "C:\\out\\\x7broot"
      pathComponents := 2, outputPath := none, blendfile := "D:\\film//shotA\\\\scene.blend"
      jobname := "\x7btimestamp\x7d/\x7b/", filename := none, fps := some .nan, format := ⟨"TGA"⟩
      imageExtension := ".tga", hasPreviews := some true }

theorem rendersAlike_fiveTargaFrames :
    fiveTargaFrames.settings.RendersAlike fiveMovedFrames.settings where
  frames f := by
    have hset : FrameSet.parse fiveTargaFrames.settings.frames =
        .ok ⟨[⟨1, 5, by decide, by decide⟩], by decide⟩ := by decide +kernel
    have hmoved : FrameSet.parse fiveMovedFrames.settings.frames =
        .ok ⟨[⟨1, 5, by decide, by decide⟩], by decide⟩ := by decide +kernel
    rw [← FrameSet.mem_iff_selects hset, ← FrameSet.mem_iff_selects hmoved]
  chunkSize := rfl
  staged := ⟨"shotA", "scene.blend", by decide +kernel, by decide +kernel⟩
  format := by decide +kernel

theorem tasks_eq_of_rendersAlike_fiveMovedFrames :
    ∃ report after otherReport otherAfter,
      fiveTargaFrames.derived.compile Zone.utc {} = (.ok report, after) ∧
      fiveMovedFrames.derived.compile (Zone.fixed 60) {} = (.ok otherReport, otherAfter) ∧
      report.outputPath ≠ otherReport.outputPath ∧ after.tasks = otherAfter.tasks := by
  have hreport : (fiveTargaFrames.derived.compile Zone.utc {}).1 =
      .ok ⟨3, "/render/shot/2023-03-24_100500/######", []⟩ := by decide +kernel
  have hmoved : (fiveMovedFrames.derived.compile (Zone.fixed 60) {}).1 =
      .ok ⟨3, "C:\\out\\\x7broot/film/shotA/\x7btimestamp\x7d/" ++
        "\x7b/\x7btimestamp\x7d/######", []⟩ := by decide +kernel
  exact ⟨_, _, _, _, Prod.ext hreport rfl, Prod.ext hmoved rfl, by decide +kernel,
    tasks_eq_of_rendersAlike (Prod.ext hreport rfl) (Prod.ext hmoved rfl) rfl rfl
      rendersAlike_fiveTargaFrames⟩

end Job
end RenderFarm

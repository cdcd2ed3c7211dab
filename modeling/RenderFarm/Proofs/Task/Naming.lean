import RenderFarm.Proofs.Frames.Rerendering
import RenderFarm.Proofs.Job.Outcome
import RenderFarm.Proofs.Task.Placeholders

/-! Names of render tasks. A task is named after its chunk, and the renderer is told the chunk in a
form of its own. Both forms are a number, or two numbers around a mark that is no digit, so that
neither says the same of two different chunks, whether or not they end before they start. A job
never gets two tasks of one name from one compilation. -/
namespace RenderFarm

namespace Chunk

/-- The frames of a chunk with a mark between them, or the one frame alone. -/
def marked (mark : Char) (more : List Char) (c : Chunk) : List Char :=
  if c.first = c.last then Text.decimal c.first
  else Text.decimal c.first ++ mark :: (more ++ Text.decimal c.last)

theorem marked_inj {mark : Char} (hmark : mark.isDigit = false) (more : List Char) {c d : Chunk} :
    c.marked mark more = d.marked mark more ↔ c = d := by
  -- A single frame has no mark in its form, so that it is no form of a range.
  have hsingle : ∀ k m s, Text.decimal k ≠ Text.decimal m ++ mark :: s := by
    intro k m s h
    exact Text.not_mem_decimal hmark k (h ▸ by simp)
  constructor
  · unfold marked
    intro h
    obtain ⟨first, last⟩ := c
    obtain ⟨first', last'⟩ := d
    split at h <;> split at h
    · simp_all [Text.decimal_inj]
    · exact absurd h (hsingle _ _ _)
    · exact absurd h.symm (hsingle _ _ _)
    · obtain ⟨hfirst, hrest⟩ := Text.decimal_append_cons_inj hmark h
      have hlast := Text.decimal_inj.1 (List.append_cancel_left hrest)
      exact congrArg₂ Chunk.mk hfirst hlast
  · rintro rfl
    rfl

theorem text_inj {c d : Chunk} : c.text = d.text ↔ c = d := by
  rw [← String.toList_inj, toList_text, toList_text]
  exact marked_inj (by decide) []

theorem renderRange_inj {c d : Chunk} : c.renderRange = d.renderRange ↔ c = d := by
  rw [← String.toList_inj, toList_renderRange, toList_renderRange]
  exact marked_inj (by decide) ['.']

end Chunk

theorem FrameSet.nodup_cut {n : Nat} (hn : 0 < n) (s : FrameSet) : (s.cut n).Nodup := by
  refine (pairwise_ahead_cut hn s).imp_of_mem ?_
  rintro c _ hc - hahead rfl
  have hfits := (areCut_cut hn s).fits c hc
  have hlt := hahead.1
  omega

namespace Task

theorem renderId_inj {c d : Chunk} : renderId c = renderId d ↔ c = d := by
  rw [renderId, renderId, ← Chunk.text_inj]
  exact String.append_right_inj _

/-- What the renderer is told to render, if the option for it stands in its place. -/
def frameRange? (t : Task) : Option String :=
  if t.command.args[5]? = some "--render-frame" then t.command.args[6]? else none

variable {options : TaskOptions} {settings : JobSettings} {outputPath : String}
  {chunks : List Chunk} {tasks : List Task}

theorem frameRange?_rendering (format : OutputFormat) (parent file outputName : String)
    (c : Chunk) :
    (rendering options format parent file outputName c).frameRange? = some c.renderRange := by
  obtain ⟨hoption, hrange⟩ := args_rendering options format parent file outputName c
  rw [frameRange?, if_pos hoption, hrange]

/-- The task is named after the chunk, and it renders the chunk. -/
structure IsFor (c : Chunk) (t : Task) : Prop where
  id : t.id = renderId c
  range : t.frameRange? = some c.renderRange

theorem forall₂_isFor_of_author (h : author options settings outputPath chunks = .ok tasks) :
    List.Forall₂ IsFor chunks tasks := by
  obtain ⟨parent, file, -, rfl⟩ := author_eq_ok_iff.1 h
  rw [List.forall₂_map_right_iff, List.forall₂_same]
  intro c _
  exact ⟨rfl, frameRange?_rendering settings.format parent file _ c⟩

variable {c d : Chunk} {t u : Task}

theorem IsFor.id_inj (ht : IsFor c t) (hu : IsFor d u) : t.id = u.id ↔ c = d := by
  rw [ht.id, hu.id, renderId_inj]

theorem IsFor.range_inj (ht : IsFor c t) (hu : IsFor d u) :
    t.frameRange? = u.frameRange? ↔ c = d := by
  rw [ht.range, hu.range, Option.some_inj, Chunk.renderRange_inj]

theorem nodup_ids (h : List.Forall₂ IsFor chunks tasks) (hchunks : chunks.Nodup) :
    (tasks.map Task.id).Nodup := by
  have hids : tasks.map Task.id = chunks.map renderId := by
    induction h with
    | nil => rfl
    | cons hct _ ih => rw [List.map_cons, List.map_cons, hct.id, ih (List.nodup_cons.1 hchunks).2]
  rw [hids]
  exact hchunks.map fun _ _ => renderId_inj.1

/-- There is one task for each chunk, in order, and two tasks have one name, or render one range,
just if their chunks are equal. The tasks that a job gets from a compilation have names of their
own. -/
theorem ids_follow_chunks (options : TaskOptions) :
    (∀ settings outputPath chunks tasks, author options settings outputPath chunks = .ok tasks →
      List.Forall₂ IsFor chunks tasks ∧
      ∀ p ∈ chunks.zip tasks, ∀ q ∈ chunks.zip tasks,
        (p.2.id = q.2.id ↔ p.1 = q.1) ∧ (p.2.frameRange? = q.2.frameRange? ↔ p.1 = q.1)) ∧
    ∀ zone job report after, Job.compile zone options job = (.ok report, after) →
      ∃ appended, after.tasks = job.tasks ++ appended ∧ (appended.map Task.id).Nodup := by
  constructor
  · intro settings outputPath chunks tasks h
    have hfor := forall₂_isFor_of_author h
    refine ⟨hfor, fun p hp q hq => ?_⟩
    have hp := List.forall₂_zip hfor hp
    have hq := List.forall₂_zip hfor hq
    exact ⟨hp.id_inj hq, hp.range_inj hq⟩
  · intro zone job report after h
    have hall := Job.forall_holds_of_compile_eq_ok h
    obtain ⟨_, s, tasks, _, _, ha, hok⟩ := Job.compile_of_forall_holds zone options hall
    rw [hok] at h
    cases h
    have hsize : 1 ≤ job.settings.effectiveChunkSize.toInt := hall .chunkSize
    exact ⟨tasks, rfl, nodup_ids (forall₂_isFor_of_author ha) (s.nodup_cut (by omega))⟩

theorem ids_follow_chunks_reversed :
    ∃ t u v report after,
      author {} (targaSettings "/shotA/scene.blend") "/r/######" [⟨1, 12⟩, ⟨11, 2⟩, ⟨1, 12⟩] =
        .ok [t, u, v] ∧
      t.id ≠ u.id ∧ t.frameRange? ≠ u.frameRange? ∧ t.id = v.id ∧
      (Job.fiveFrames "/jobs/shotA/scene.blend").compile Zone.utc {} = (.ok report, after) ∧
      (after.tasks.map Task.id).Nodup := by
  have hstaged : Path.parentAndFile? "/shotA/scene.blend" = some ("shotA", "scene.blend") := by
    decide +kernel
  have hauthor : author {} (targaSettings "/shotA/scene.blend") "/r/######"
      [⟨1, 12⟩, ⟨11, 2⟩, ⟨1, 12⟩] = .ok ([⟨1, 12⟩, ⟨11, 2⟩, ⟨1, 12⟩].map
        (rendering {} ⟨"TARGA"⟩ "shotA" "scene.blend" (Path.basename "/r/######"))) :=
    author_eq_ok_iff.2 ⟨_, _, hstaged, rfl⟩
  have hreport : ((Job.fiveFrames "/jobs/shotA/scene.blend").compile Zone.utc {}).1 =
      .ok ⟨3, "/render/anim/2023-03-24_100500/######", []⟩ := by decide +kernel
  have hcompile : (Job.fiveFrames "/jobs/shotA/scene.blend").compile Zone.utc {} =
      (.ok ⟨3, "/render/anim/2023-03-24_100500/######", []⟩,
        ((Job.fiveFrames "/jobs/shotA/scene.blend").compile Zone.utc {}).2) := Prod.ext hreport rfl
  obtain ⟨hsame, hnames⟩ := ids_follow_chunks {}
  obtain ⟨-, hpairs⟩ := hsame _ _ _ _ hauthor
  obtain ⟨appended, htasks, hnodup⟩ := hnames _ _ _ _ hcompile
  have hdiffer := hpairs _ (.head _) _ (.tail _ (.head _))
  have hagree := hpairs _ (.head _) _ (.tail _ (.tail _ (.head _)))
  refine ⟨_, _, _, _, _, hauthor, ?_, ?_, hagree.1.2 rfl, hcompile, ?_⟩
  · exact mt hdiffer.1.1 (by decide)
  · exact mt hdiffer.2.1 (by decide)
  · rw [htasks]
    exact hnodup

end Task
end RenderFarm

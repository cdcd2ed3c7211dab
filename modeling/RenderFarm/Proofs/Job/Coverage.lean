import Mathlib.Data.List.Forall2
import RenderFarm.Proofs.Job.Outcome

/-! The frames that a compiled job renders. What the renderer reads from the commands of the new
tasks, one task after another, are the frames that the job's expression selects, in ascending order
and each once. -/
namespace RenderFarm

/-- The task has the renderer read the chunk, and is named after it. -/
structure Task.Renders (t : Task) (c : Chunk) : Prop where
  option : t.command.args[5]? = some "--render-frame"
  range : (t.command.args[6]? >>= Chunk.ofRenderRange?) = some c
  id : t.id = "render-" ++ c.text

namespace Task

theorem renders_rendering (options : TaskOptions) (format : OutputFormat)
    (parent file outputName : String) {c : Chunk} (hf : c.first ≤ maxFrame)
    (hl : c.last ≤ maxFrame) : (rendering options format parent file outputName c).Renders c where
  option := (args_rendering options format parent file outputName c).1
  range := by
    rw [(args_rendering options format parent file outputName c).2]
    exact Chunk.ofRenderRange?_renderRange hf hl
  id := rfl

theorem forall₂_renders_of_author {options : TaskOptions} {settings : JobSettings}
    {outputPath : String} {chunks : List Chunk} {tasks : List Task}
    (h : author options settings outputPath chunks = .ok tasks)
    (hb : ∀ c ∈ chunks, c.first ≤ maxFrame ∧ c.last ≤ maxFrame) :
    List.Forall₂ Renders tasks chunks := by
  obtain ⟨parent, file, _, rfl⟩ := author_eq_ok_iff.1 h
  rw [List.forall₂_map_left_iff, List.forall₂_same]
  intro c hc
  exact renders_rendering options settings.format parent file _ (hb c hc).1 (hb c hc).2

end Task

namespace FrameSet

/-- The chunks of a set that was parsed hold the selected frames, ascending, and not too many at a
time. -/
theorem cut_covers {expression : String} {s : FrameSet} (h : parse expression = .ok s) {n : Nat}
    (hn : 0 < n) :
    s.cut n ≠ [] ∧ ((s.cut n).flatMap Chunk.toList).Pairwise (· < ·) ∧
      (∀ f, f ∈ (s.cut n).flatMap Chunk.toList ↔ Selects expression f) ∧
      ∀ c ∈ s.cut n, c.first ≤ c.last ∧ c.toList.length ≤ n := by
  have hframes := flatMap_toList_cut hn s
  refine ⟨?_, ?_, ?_, ?_⟩
  · intro hnil
    obtain ⟨f, hf⟩ := exists_mem_of_parse h
    rw [← mem_toList, ← hframes, hnil] at hf
    simp at hf
  · rw [hframes]
    exact pairwise_lt_toList s
  · intro f
    rw [hframes, mem_toList]
    exact mem_iff_selects h f
  · intro c hc
    have hb := bounds_of_mem_cut hn hc
    refine ⟨hb.1, ?_⟩
    simp only [Chunk.toList, List.length_range']
    omega

end FrameSet

namespace Job

end Job
end RenderFarm

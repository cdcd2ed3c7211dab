import RenderFarm.Proofs.Command.Placeholders
import RenderFarm.Proofs.Job.Stages

/-! What a worker has to know for the tasks of a job. The commands of a job differ in the range of
frames only, and a range holds no brace, so that all tasks list the same placeholders. If no text of
the submission holds an opening brace, these are the places on the worker's side. -/
namespace RenderFarm

namespace Task

/-- The tasks differ at most in their identifiers and in the argument after `--render-frame`. -/
structure AlikeButFrames (t u : Task) : Prop where
  workerType : t.workerType = u.workerType
  otherParts : { t.command with args := [] } = { u.command with args := [] }
  args : ∃ before range otherRange after,
    t.command.args = before ++ "--render-frame" :: range :: after ∧
      u.command.args = before ++ "--render-frame" :: otherRange :: after

variable {options : TaskOptions} {format : OutputFormat} {parent file outputName : String}

theorem alikeButFrames_rendering (c d : Chunk) :
    AlikeButFrames (rendering options format parent file outputName c)
      (rendering options format parent file outputName d) where
  workerType := rfl
  otherParts := rfl
  args := ⟨_ :: _ :: _ :: _ :: _ :: [], c.renderRange, d.renderRange, _, rfl, rfl⟩

theorem placeholders_renderRange (c : Chunk) : placeholders c.renderRange = [] :=
  placeholders_of_not_mem (c.not_mem_renderRange rfl (by decide))

def renderParts (script scene images format range : String) : List String :=
  ["\x7bblender\x7d", "\x7bblenderArgs\x7d", "-P", script, scene, "-noaudio", "--render-output",
    images, "--render-format", format, "--render-frame", range, "--python-expr",
    compositingExpression, "--", "--custom-script", "--device-type", "\x7bdeviceType\x7d"]

theorem parts_renderCommand (options : TaskOptions) (format : OutputFormat)
    (parent file outputName : String) (c : Chunk) :
    (renderCommand options format parent file outputName c).parts =
      renderParts (stagedPath [options.startupScript]) (stagedPath [parent, file])
        (renderedPath [parent, outputName]) format.cliName c.renderRange :=
  rfl

def fixedWords : List String :=
  ["-P", "-noaudio", "--render-output", "--render-format", "--render-frame", "--python-expr",
    compositingExpression, "--", "--custom-script", "--device-type"]

theorem placeholders_fixedWords : ∀ word ∈ fixedWords, placeholders word = [] := by
  intro word hword
  apply placeholders_of_not_mem
  revert word
  simp only [fixedWords, compositingExpression, List.forall_mem_cons]
  refine ⟨?_, ?_, ?_, ?_, ?_, ?_, ?_, ?_, ?_, ?_, by simp⟩ <;> rw [String.toList_ofList] <;> decide

theorem flatMap_placeholders_renderParts {script scene images format range : String}
    (hrange : placeholders range = []) :
    (renderParts script scene images format range).flatMap placeholders =
      ["blender", "blenderArgs"] ++ placeholders script ++ placeholders scene ++
        placeholders images ++ placeholders format ++ ["deviceType"] := by
  have hplaces : placeholders "\x7bblender\x7d" = ["blender"] ∧
      placeholders "\x7bblenderArgs\x7d" = ["blenderArgs"] ∧
      placeholders "\x7bdeviceType\x7d" = ["deviceType"] := by decide +kernel
  have hwords := placeholders_fixedWords
  simp only [fixedWords, List.forall_mem_cons] at hwords
  simp [renderParts, hplaces, hwords, hrange]

/-- The placeholders of a renderer command are those of its paths and of the format, between the
ones that every command has; the range of frames has none. -/
theorem placeholders_renderCommand (options : TaskOptions) (format : OutputFormat)
    (parent file outputName : String) (c : Chunk) :
    (renderCommand options format parent file outputName c).placeholders =
      (["blender", "blenderArgs"] ++ placeholders (stagedPath [options.startupScript]) ++
        placeholders (stagedPath [parent, file]) ++
        placeholders (renderedPath [parent, outputName]) ++ placeholders format.cliName ++
        ["deviceType"]).eraseDups := by
  rw [Command.placeholders_eq_eraseDups_parts, parts_renderCommand,
    flatMap_placeholders_renderParts (placeholders_renderRange c)]

theorem not_mem_cliName {mark : Char} (hmark : mark ∉ "TGA".toList) (h : mark ∉ format.name.toList) :
    mark ∉ format.cliName.toList := by
  rw [OutputFormat.cliName]
  split
  · exact hmark
  · exact h

theorem placeholders_join {heads parts : List String} {a b : String}
    (hheads : (Path.join heads).toList =
      Template.placeholderText a.toList ++ ('/' :: Template.placeholderText b.toList))
    (ha : a.toList ≠ [] ∧ '\x7d' ∉ a.toList) (hb : b.toList ≠ [] ∧ '\x7d' ∉ b.toList)
    (hparts : ∀ part ∈ parts, '\x7b' ∉ part.toList) :
    placeholders (Path.join (heads ++ parts)) = [a, b] := by
  obtain ⟨rest, hrest, hfree⟩ :=
    Path.exists_toList_foldl_append (by decide) hparts (Path.join heads)
  have htext : (Path.join (heads ++ parts)).toList =
      [] ++ (Template.placeholderText a.toList ++
        (['/'] ++ (Template.placeholderText b.toList ++ rest))) := by
    rw [Path.join_append, hrest, hheads]
    simp
  rw [placeholders, htext, Template.names_ofList_append_placeholder (by simp) ha.1 ha.2,
    Template.names_ofList_append_placeholder (by decide) hb.1 hb.2,
    Template.names_ofList_of_not_mem hfree, String.ofList_toList, String.ofList_toList]

theorem placeholders_stagedPath {parts : List String} (h : ∀ part ∈ parts, '\x7b' ∉ part.toList) :
    placeholders (stagedPath parts) = ["clientStoragePath", "jobSubPath"] := by
  have hheads : (Path.join ["\x7bclientStoragePath\x7d", "\x7bjobSubPath\x7d"]).toList =
      Template.placeholderText "clientStoragePath".toList ++
        ('/' :: Template.placeholderText "jobSubPath".toList) := by
    simp [Path.join, Path.append, Path.endsWithSeparator, Path.isSeparator,
      Template.placeholderText]
  have hplaces := placeholders_join hheads (by simp) (by simp) h
  exact hplaces

theorem placeholders_renderedPath {parts : List String}
    (h : ∀ part ∈ parts, '\x7b' ∉ part.toList) :
    placeholders (renderedPath parts) = ["clientStoragePath", "renderSubPath"] := by
  have hheads : (Path.join ["\x7bclientStoragePath\x7d", "\x7brenderSubPath\x7d"]).toList =
      Template.placeholderText "clientStoragePath".toList ++
        ('/' :: Template.placeholderText "renderSubPath".toList) := by
    simp [Path.join, Path.append, Path.endsWithSeparator, Path.isSeparator,
      Template.placeholderText]
  have hplaces := placeholders_join hheads (by simp) (by simp) h
  exact hplaces

theorem placeholders_renderCommand_of_not_mem
    (h : ∀ text ∈ [parent, file, outputName, options.startupScript, format.name],
      '\x7b' ∉ text.toList) (c : Chunk) :
    (renderCommand options format parent file outputName c).placeholders =
      ["blender", "blenderArgs", "clientStoragePath", "jobSubPath", "renderSubPath",
        "deviceType"] := by
  simp only [List.forall_mem_cons] at h
  obtain ⟨hparent, hfile, houtput, hscript, hformat, -⟩ := h
  have hname : placeholders format.cliName = [] :=
    placeholders_of_not_mem (not_mem_cliName (by simp) hformat)
  rw [placeholders_renderCommand, hname, placeholders_stagedPath (by simpa using hscript),
    placeholders_stagedPath (by simpa using ⟨hparent, hfile⟩),
    placeholders_renderedPath (by simpa using ⟨hparent, houtput⟩)]
  decide

/-- All tasks that are authored together list the same placeholders, and they differ at most in
their identifiers and in the range of frames. If no text that gets into the commands holds an opening
brace, the placeholders are the places on the worker's side. -/
theorem placeholders_author {settings : JobSettings} {outputPath : String} {chunks : List Chunk}
    {tasks : List Task} (h : author options settings outputPath chunks = .ok tasks) :
    (∀ t ∈ tasks, ∀ u ∈ tasks,
      t.command.placeholders = u.command.placeholders ∧ t.AlikeButFrames u) ∧
    ∀ parent file, Path.parentAndFile? settings.blendfile = some (parent, file) →
      (∀ text ∈ [parent, file, Path.basename outputPath, options.startupScript,
        settings.format.name], '\x7b' ∉ text.toList) →
      ∀ t ∈ tasks, t.command.placeholders =
        ["blender", "blenderArgs", "clientStoragePath", "jobSubPath", "renderSubPath",
          "deviceType"] := by
  obtain ⟨parent, file, hstaged, rfl⟩ := author_eq_ok_iff.1 h
  constructor
  · intro t ht u hu
    obtain ⟨c, -, rfl⟩ := List.mem_map.1 ht
    obtain ⟨d, -, rfl⟩ := List.mem_map.1 hu
    refine ⟨?_, alikeButFrames_rendering c d⟩
    simp only [rendering, placeholders_renderCommand]
  · intro parent' file' hstaged' hfree t ht
    cases hstaged.symm.trans hstaged'
    obtain ⟨c, -, rfl⟩ := List.mem_map.1 ht
    exact placeholders_renderCommand_of_not_mem hfree c

def targaSettings (blendfile : String) : JobSettings :=
  { frames := "1-3", chunkSize := some 2, outputRoot := "/render", pathComponents := 0
    outputPath := none, blendfile, jobname := "anim", filename := none, fps := none
    format := ⟨"TARGA"⟩, imageExtension := ".tga", hasPreviews := none }

/-- A closing brace in a name does not count. Where the path makes a further placeholder of its own,
it is the same for both tasks. -/
theorem placeholders_author_openBrace :
    ∃ t u v w,
      author {} (targaSettings "C:\\shotA\\scene\x7d.blend") "/r/######" [⟨1, 2⟩, ⟨3, 3⟩] =
        .ok [t, u] ∧ t.AlikeButFrames u ∧
      u.command.placeholders = ["blender", "blenderArgs", "clientStoragePath", "jobSubPath",
        "renderSubPath", "deviceType"] ∧
      author {} (targaSettings "/a\x7bb/c\x7d.blend") "/r/######" [⟨1, 2⟩, ⟨3, 3⟩] = .ok [v, w] ∧
      "b/c" ∈ placeholders v.command.blendfile ∧
      v.command.placeholders = w.command.placeholders := by
  have hfile : Path.parentAndFile? "C:\\shotA\\scene\x7d.blend" =
      some ("shotA", "scene\x7d.blend") := by decide +kernel
  have hbrace : Path.parentAndFile? "/a\x7bb/c\x7d.blend" = some ("a\x7bb", "c\x7d.blend") := by
    decide +kernel
  have hname : "b/c" ∈ placeholders (stagedPath ["a\x7bb", "c\x7d.blend"]) := by decide +kernel
  have hfree : ∀ text ∈ ["shotA", "scene\x7d.blend", Path.basename "/r/######", "startup_script.py",
      "TARGA"], '\x7b' ∉ text.toList := by decide +kernel
  have hplain : author {} (targaSettings "C:\\shotA\\scene\x7d.blend") "/r/######"
      [⟨1, 2⟩, ⟨3, 3⟩] = .ok ([⟨1, 2⟩, ⟨3, 3⟩].map
        (rendering {} ⟨"TARGA"⟩ "shotA" "scene\x7d.blend" (Path.basename "/r/######"))) :=
    author_eq_ok_iff.2 ⟨_, _, hfile, rfl⟩
  have hopen : author {} (targaSettings "/a\x7bb/c\x7d.blend") "/r/######"
      [⟨1, 2⟩, ⟨3, 3⟩] = .ok ([⟨1, 2⟩, ⟨3, 3⟩].map
        (rendering {} ⟨"TARGA"⟩ "a\x7bb" "c\x7d.blend" (Path.basename "/r/######"))) :=
    author_eq_ok_iff.2 ⟨_, _, hbrace, rfl⟩
  obtain ⟨halike, hplaces⟩ := placeholders_author hplain
  obtain ⟨hsame, -⟩ := placeholders_author hopen
  exact ⟨_, _, _, _, hplain, (halike _ (.head _) _ (.tail _ (.head _))).2,
    hplaces _ _ hfile hfree _ (.tail _ (.head _)), hopen, hname,
    (hsame _ (.head _) _ (.tail _ (.head _))).1⟩

end Task
end RenderFarm

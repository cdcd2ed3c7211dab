import Mathlib.Data.List.Forall2
import RenderFarm.Proofs.Job.Loading
import RenderFarm.Proofs.Task.Placeholders

/-! Arguments of render tasks. Empty parts are left out of a command line, so that an option without
a value would take the next option for it. The paths of a renderer command start with a place on the
worker's side and a range has a digit; only the format can be empty, and the check of the settings
sees to it that it is not. -/
namespace RenderFarm

namespace Command

/-- The command line has all parts of the command, and the given options stand in it, each directly
before its value. -/
structure PassesAll (values : List (String × String)) (c : Command) : Prop where
  commandLine : c.commandLine = c.exe :: c.exeArgs :: c.argsBefore ++ c.blendfile :: c.args
  length : c.commandLine.length = 18
  followed : ∀ v ∈ values, [v.1, v.2] <:+: c.commandLine

theorem commandLine_eq_parts_iff {c : Command} : c.commandLine = c.parts ↔ "" ∉ c.parts := by
  rw [commandLine_eq_filter_parts, List.filter_eq_self]
  constructor
  · intro h hempty
    exact absurd (h "" hempty) (by decide)
  · intro h part hpart
    exact bne_iff_ne.2 (ne_of_mem_of_not_mem hpart h)

end Command

theorem JobSettings.isBlankText_formatName {s : JobSettings} (h : s.check = .ok ()) :
    Text.isBlankText s.format.name = false :=
  (check_eq_ok_iff.1 h).1 ("format", s.format.name) (by simp [requirements])

theorem Chunk.renderRange_ne_empty (c : Chunk) : c.renderRange ≠ "" := by
  intro h
  have hlist := c.toList_renderRange
  rw [h] at hlist
  have hdecimal : Text.decimal c.first ≠ [] := by simp [Text.decimal]
  split at hlist
  · exact hdecimal hlist.symm
  · exact hdecimal (List.append_eq_nil_iff.1 hlist.symm).1

theorem OutputFormat.cliName_eq_empty_iff {format : OutputFormat} :
    format.cliName = "" ↔ format.name = "" := by
  unfold cliName
  split
  · rename_i h
    simp [h]
  · exact Iff.rfl

namespace Task

theorem stagedPath_ne_empty (parts : List String) : stagedPath parts ≠ "" :=
  Path.join_ne_empty ⟨_, List.mem_cons_self .., by decide⟩

theorem renderedPath_ne_empty (parts : List String) : renderedPath parts ≠ "" :=
  Path.join_ne_empty ⟨_, List.mem_cons_self .., by decide⟩

variable {options : TaskOptions} {format : OutputFormat} {parent file outputName : String}

/-- The options of a renderer command that take a value, with their values. -/
def optionValues (options : TaskOptions) (format : OutputFormat) (parent outputName : String)
    (chunk : Chunk) : List (String × String) :=
  [("-P", stagedPath [options.startupScript]),
   ("--render-output", renderedPath [parent, outputName]), ("--render-format", format.cliName),
   ("--render-frame", chunk.renderRange), ("--python-expr", compositingExpression),
   ("--device-type", "\x7bdeviceType\x7d")]

/-- A format without a name is the only thing that a renderer command can be short of. -/
theorem empty_mem_parts_renderCommand_iff (options : TaskOptions) (format : OutputFormat)
    (parent file outputName : String) (chunk : Chunk) :
    "" ∈ (renderCommand options format parent file outputName chunk).parts ↔ format.name = "" := by
  have hscript := (stagedPath_ne_empty [options.startupScript]).symm
  have hscene := (stagedPath_ne_empty [parent, file]).symm
  have himages := (renderedPath_ne_empty [parent, outputName]).symm
  have hrange := (Chunk.renderRange_ne_empty chunk).symm
  rw [parts_renderCommand, ← OutputFormat.cliName_eq_empty_iff, eq_comm]
  simp [renderParts, compositingExpression, hscript, hscene, himages, hrange]

theorem pair_infix_of_drop {l rest : List String} {a b : String} (i : Nat)
    (h : l.drop i = a :: b :: rest) : [a, b] <:+: l := by
  refine ⟨l.take i, rest, ?_⟩
  rw [List.append_assoc, List.cons_append, List.singleton_append, ← h, List.take_append_drop]

theorem followed_renderParts {script scene images format range : String} :
    ∀ v ∈ [("-P", script), ("--render-output", images), ("--render-format", format),
        ("--render-frame", range), ("--python-expr", compositingExpression),
        ("--device-type", "\x7bdeviceType\x7d")],
      [v.1, v.2] <:+: renderParts script scene images format range := by
  simp only [List.forall_mem_cons]
  exact ⟨pair_infix_of_drop 2 rfl, pair_infix_of_drop 6 rfl, pair_infix_of_drop 8 rfl,
    pair_infix_of_drop 10 rfl, pair_infix_of_drop 12 rfl, pair_infix_of_drop 16 rfl, by simp⟩

theorem passesAll_renderCommand (h : format.name ≠ "") (chunk : Chunk) :
    (renderCommand options format parent file outputName chunk).PassesAll
      (optionValues options format parent outputName chunk) := by
  have hline := Command.commandLine_eq_parts_iff.2
    (mt (empty_mem_parts_renderCommand_iff options format parent file outputName chunk).1 h)
  refine ⟨hline, ?_, ?_⟩
  · rw [hline]
    rfl
  · rw [hline]
    exact followed_renderParts

/-- No argument is lost on the way to the renderer. If settings pass the check, the command line of
every task that is authored for them has eighteen entries, the parts of its command in order, and
each option is directly followed by its own value. -/
theorem commandLine_author {settings : JobSettings} {outputPath : String} {chunks : List Chunk}
    {tasks : List Task} (hcheck : settings.check = .ok ())
    (h : author options settings outputPath chunks = .ok tasks) :
    ∃ parent file, Path.parentAndFile? settings.blendfile = some (parent, file) ∧
      List.Forall₂ (fun chunk task => task.command.PassesAll
        (optionValues options settings.format parent (Path.basename outputPath) chunk))
        chunks tasks := by
  obtain ⟨parent, file, hstaged, rfl⟩ := author_eq_ok_iff.1 h
  have hformat : settings.format.name ≠ "" := by
    intro hempty
    have hblank := JobSettings.isBlankText_formatName hcheck
    rw [hempty, Text.isBlankText_empty] at hblank
    cases hblank
  refine ⟨parent, file, hstaged, ?_⟩
  rw [List.forall₂_map_right_iff, List.forall₂_same]
  intro chunk _
  exact passesAll_renderCommand hformat chunk

theorem commandLine_author_onlySeparators :
    (targaSettings "\\shotA//scene.blend").check = .ok () ∧
      ∃ t u,
        author { startupScript := "" } (targaSettings "\\shotA//scene.blend") "//\\"
          [⟨1, 2⟩, ⟨9, 3⟩] = .ok [t, u] ∧
        t.command.commandLine.length = 18 ∧
        ["-P", "\x7bclientStoragePath\x7d/\x7bjobSubPath\x7d"] <:+: t.command.commandLine ∧
        ["--render-output", "\x7bclientStoragePath\x7d/\x7brenderSubPath\x7d/shotA"] <:+:
          u.command.commandLine ∧
        ["--render-frame", "9..3"] <:+: u.command.commandLine := by
  have hcheck : (targaSettings "\\shotA//scene.blend").check = .ok () := by decide +kernel
  have hstaged : Path.parentAndFile? "\\shotA//scene.blend" = some ("shotA", "scene.blend") := by
    decide +kernel
  have hauthor : author { startupScript := "" } (targaSettings "\\shotA//scene.blend") "//\\"
      [⟨1, 2⟩, ⟨9, 3⟩] = .ok ([⟨1, 2⟩, ⟨9, 3⟩].map (rendering { startupScript := "" } ⟨"TARGA"⟩
        "shotA" "scene.blend" (Path.basename "//\\"))) :=
    author_eq_ok_iff.2 ⟨_, _, hstaged, rfl⟩
  have hscript : stagedPath [""] = "\x7bclientStoragePath\x7d/\x7bjobSubPath\x7d" := by
    decide +kernel
  have himages : renderedPath ["shotA", Path.basename "//\\"] =
      "\x7bclientStoragePath\x7d/\x7brenderSubPath\x7d/shotA" := by decide +kernel
  have hrange : (⟨9, 3⟩ : Chunk).renderRange = "9..3" := by decide +kernel
  obtain ⟨parent, file, hnames, hall⟩ := commandLine_author hcheck hauthor
  cases hstaged.symm.trans hnames
  rw [List.map_cons, List.map_cons, List.map_nil, List.forall₂_cons, List.forall₂_cons] at hall
  obtain ⟨ht, hu, -⟩ := hall
  refine ⟨hcheck, _, _, hauthor, ht.length, ?_, ?_, ?_⟩
  · rw [← hscript]
    exact ht.followed _ (.head _)
  · rw [← himages]
    exact hu.followed _ (.tail _ (.head _))
  · rw [← hrange]
    exact hu.followed _ (.tail _ (.tail _ (.tail _ (.head _))))

end Task
end RenderFarm

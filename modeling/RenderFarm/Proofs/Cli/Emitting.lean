import RenderFarm.Proofs.Cli.DryRun
import RenderFarm.Proofs.Files.Writing

/-! `compile` does all or nothing. Its text is a value that depends on the directory, and there is
nothing to write before there is all of it; so a run that fails has printed nothing and changed
nothing, and a run that writes a file writes what a run without the file would print. -/
namespace RenderFarm
namespace Cli

variable {s : Surroundings} {choice created out : Option String} {path text : String}
  {d after : Directory} {made : Outcome} {f : Failure} {args : List String}

theorem run_emit_some (text target : String) (d : Directory) :
    (emit text (some target) : StateM Directory (Except Failure String)).run d =
      match d.write target text with
      | .error fault => (.error (.outputUncreatable target fault), d)
      | .ok after => (.ok "", after) := by
  have hwrite : (Files.write target text : StateM Directory (Except FileFault Unit)) d =
      match d.write target text with
      | .error fault => (.error fault, d)
      | .ok after => (.ok (), after) := by
    change (match d.write target text with
      | .error fault => pure (.error fault)
      | .ok after => do set after; pure (.ok ()) : StateM Directory (Except FileFault Unit)) d = _
    cases d.write target text <;> rfl
  simp only [emit, StateT.run, bind, StateT.bind, hwrite]
  cases d.write target text <;> rfl

/-- A run of `compile` fails before there is a text, or prints the text, or fails to make the file,
or makes it. -/
theorem compile_cases
    (h : (compile s choice path created out : StateM Directory Outcome).run d = (made, after)) :
    (∃ f, made = finish "" (.error f) ∧ after = d) ∨
      ∃ text, document s choice path created d = .ok text ∧
        ((out = none ∧ made = finish "" (.ok text) ∧ after = d) ∨
          ∃ target, out = some target ∧ made = finish "" (.ok "") ∧
            d.write target text = .ok after) := by
  rw [run_compile] at h
  cases hdocument : document s choice path created d with
  | error f =>
    rw [hdocument] at h
    cases h
    exact .inl ⟨f, rfl, rfl⟩
  | ok text =>
    cases out with
    | none =>
      rw [hdocument] at h
      cases h
      exact .inr ⟨text, rfl, .inl ⟨rfl, rfl, rfl⟩⟩
    | some target =>
      simp only [hdocument, run_emit_some] at h
      cases hwrite : d.write target text with
      | error fault =>
        rw [hwrite] at h
        cases h
        exact .inl ⟨_, rfl, rfl⟩
      | ok written =>
        rw [hwrite] at h
        cases h
        exact .inr ⟨text, rfl, .inr ⟨target, rfl, rfl, hwrite⟩⟩

/-- The time of creation is given for what was read as a job file, on the command line or in it. -/
def TimeGiven (created : Option String) (read : Except FileFault String) : Prop :=
  ∀ text file, read = .ok text → JobFile.parse? text = some file →
    (created <|> file.created).isSome

theorem document_again (id : JobId) (now : Instant) (htime : TimeGiven created (d.read path))
    (h : document s choice path created d = .ok text) :
    ∃ (pretty : Bool) (job : Job) (warnings : List JobWarning),
      text = job.emission pretty warnings ∧
      document (s.again id now) choice path created d =
        .ok ((job.withId id).emission pretty warnings) := by
  cases hconfig : d.result (loadConfig s.home choice) with
  | error f =>
    rw [document, hconfig] at h
    cases h
  | ok config =>
    have hagain : d.result (loadConfig (s.again id now).home choice) = .ok config := hconfig
    rw [document_of_ok hconfig] at h
    rw [document_of_ok hagain, jobOutcome_again id now htime]
    cases hmade : jobOutcome config s created path (d.read path) with
    | error f =>
      rw [hmade] at h
      cases h
    | ok made =>
      rw [hmade] at h
      cases h
      exact ⟨config.pretty, made.2, made.1.warnings, rfl, rfl⟩

/-- A run of `compile` that writes no file prints the text; in other surroundings it prints the same
job with the identifier that is made up there, if the time of creation is given. -/
structure Prints (s : Surroundings) (choice : Option String) (path : String)
    (created : Option String) (d : Directory) (text : String) : Prop where
  here : ∀ args, parse args = .ok (.compile choice path created none) →
    (run s args : StateM Directory Outcome).run d = ({ code := 0, stdout := text }, d)
  again : TimeGiven created (d.read path) → ∀ id now args,
    parse args = .ok (.compile choice path created none) →
    ∃ (pretty : Bool) (job : Job) (warnings : List JobWarning),
      text = job.emission pretty warnings ∧
      (run (s.again id now) args : StateM Directory Outcome).run d =
        ({ code := 0, stdout := (job.withId id).emission pretty warnings }, d)

theorem run_printing (hargs : parse args = .ok (.compile choice path created none))
    (h : document s choice path created d = .ok text) :
    (run s args : StateM Directory Outcome).run d = ({ code := 0, stdout := text }, d) := by
  rw [run, hargs]
  simp only
  rw [run_compile_none, h]
  simp only [finish, String.empty_append]

theorem prints_of_document (h : document s choice path created d = .ok text) :
    Prints s choice path created d text where
  here _ hargs := run_printing hargs h
  again htime id now _ hargs := by
    obtain ⟨pretty, job, warnings, htext, hagain⟩ := document_again id now htime h
    exact ⟨pretty, job, warnings, htext, run_printing hargs hagain⟩

/-- Whatever is in the directory: a run of `compile` that fails has printed nothing and left all
files as they were, and so has left all files one that is not told to write a file. One that writes
a file prints nothing, changes no other file, and writes to it what would be printed otherwise. -/
theorem compile_all_or_nothing
    (hargs : parse args = .ok (.compile choice path created out) ∨ parse args = .error .usage)
    (h : (run s args : StateM Directory Outcome).run d = (made, after)) :
    (made.code ≠ 0 → made.stdout = "" ∧ after = d) ∧
      (made.code = 0 → out = none → after = d) ∧
      (made.code = 0 → ∀ target, out = some target → made.stdout = "" ∧
        ∃ text, d.Writes target text after ∧ Prints s choice path created d text) := by
  obtain hargs | hargs := hargs
  · rw [run, hargs] at h
    obtain ⟨f, rfl, rfl⟩ | ⟨text, hdocument, ⟨rfl, rfl, rfl⟩ | ⟨target, rfl, rfl, hwrite⟩⟩ :=
      compile_cases h
    · exact ⟨fun _ => ⟨rfl, rfl⟩, fun hcode => absurd hcode Nat.one_ne_zero,
        fun hcode => absurd hcode Nat.one_ne_zero⟩
    · exact ⟨fun hcode => absurd rfl hcode, fun _ _ => rfl,
        fun _ _ hout => absurd hout.symm (Option.some_ne_none _)⟩
    · refine ⟨fun hcode => absurd rfl hcode, fun _ hout => absurd hout (Option.some_ne_none _), ?_⟩
      rintro - _ ⟨⟩
      exact ⟨rfl, text, Directory.writes_of_write hwrite, prints_of_document hdocument⟩
  · rw [run, hargs] at h
    cases h
    exact ⟨fun _ => ⟨rfl, rfl⟩, fun hcode => absurd hcode (Nat.succ_ne_zero 1),
      fun hcode => absurd hcode (Nat.succ_ne_zero 1)⟩

/-- A job file is replaced by what is compiled from it, whatever path to it is given. -/
theorem compile_all_or_nothing_shotDirectory :
    ∃ made after, (run farmSurroundings ["compile", "shot.toml", "--out", "../farm/shot.toml"] :
        StateM Directory Outcome).run shotDirectory = (made, after) ∧
      made.code = 0 ∧ made.stdout = "" ∧
      ∃ text, after.read "shot.toml" = .ok text ∧
        (run farmSurroundings ["compile", "shot.toml"] : StateM Directory Outcome).run
          shotDirectory = ({ code := 0, stdout := text }, shotDirectory) := by
  have hargs : parse ["compile", "shot.toml", "--out", "../farm/shot.toml"] =
      .ok (.compile none "shot.toml" none (some "../farm/shot.toml")) := by
    decide +kernel
  have hplain : parse ["compile", "shot.toml"] = .ok (.compile none "shot.toml" none none) := by
    decide +kernel
  have hnames : Directory.names "../farm/shot.toml" = ["..", "farm", "shot.toml"] := by
    decide +kernel
  have hslash : "../farm/shot.toml".toList.getLast?.any Directory.isSlash = false := by
    decide +kernel
  have hwalk : shotDirectory.walk "../farm/shot.toml" ["..", "farm"] =
      .ok (.directory ["farm"]) := by
    decide +kernel
  have hstep : shotDirectory.step (.directory ["farm"]) "shot.toml" =
      .ok (.file ["farm", "shot.toml"]) := by
    decide +kernel
  have hhere : shotDirectory.locate "shot.toml" = .ok (.file ["farm", "shot.toml"]) := by
    decide +kernel
  have hthere : shotDirectory.locate "../farm/shot.toml" = .ok (.file ["farm", "shot.toml"]) := by
    decide +kernel
  obtain ⟨text, htext⟩ :
      ∃ text, document farmSurroundings none "shot.toml" none shotDirectory = .ok text := by
    have hcode := code_compile_shotDirectory
    rw [result_compile_none] at hcode
    cases hdocument : document farmSurroundings none "shot.toml" none shotDirectory with
    | error f =>
      rw [hdocument] at hcode
      cases hcode
    | ok text => exact ⟨text, rfl⟩
  have hwrite : shotDirectory.write "../farm/shot.toml" text =
      .ok (shotDirectory.put ["farm", "shot.toml"] text) := by
    rw [Directory.write, hnames]
    simp only [List.reverse_cons, List.reverse_nil, List.nil_append, List.cons_append, hwalk,
      hslash, hstep]
    rfl
  have hrun : (run farmSurroundings ["compile", "shot.toml", "--out", "../farm/shot.toml"] :
      StateM Directory Outcome).run shotDirectory =
        ({ code := 0 }, shotDirectory.put ["farm", "shot.toml"] text) := by
    rw [run, hargs]
    simp only [run_compile, htext, run_emit_some, hwrite]
    rfl
  obtain ⟨-, -, hwritten⟩ := compile_all_or_nothing (.inl hargs) hrun
  obtain ⟨hstdout, written, hwrites, hprints⟩ := hwritten rfl "../farm/shot.toml" rfl
  obtain ⟨_, -, hsets⟩ := hwrites.file
  have hsame := (hsets.walk_of_ok hhere).trans (hsets.walk_of_ok hthere).symm
  exact ⟨_, _, hrun, rfl, hstdout, written, hwrites.read _ hsame, hprints.here _ hplain⟩

end Cli
end RenderFarm

import RenderFarm.JobFile
import RenderFarm.Proofs.Json.Layouts
import RenderFarm.Proofs.Time.Rfc3339

/-! Job documents. Each part of a job is written as a record whose fields are read as they were
written, so that a job comes back from its document, whatever its status, its tasks and its texts
are; only a frame rate that is not a finite number is lost, being `null` in the document. Both
layouts of the document of a compiled job are read as the same data, which spells the job out, and
the layout on one line is one line. -/
namespace RenderFarm

theorem mapM_map_of_forall {α β : Type} {write : α → β} {read : β → Option α}
    (h : ∀ a, read (write a) = some a) (l : List α) : (l.map write).mapM read = some l := by
  have hread : read ∘ write = fun a => pure (id a) := funext h
  rw [List.mapM_map, hread, List.mapM_pure, List.map_id]
  rfl

namespace JobId

section Cut

variable {α : Type} {ns : List Nat} {l : List α}

theorem map_length_cut (h : ns.foldr (· + ·) 0 ≤ l.length) : (cut ns l).map List.length = ns := by
  induction ns generalizing l with
  | nil => rfl
  | cons n ns ih =>
    rw [List.foldr_cons] at h
    have hrest := ih (l := l.drop n) (by rw [List.length_drop]; omega)
    rw [cut, List.map_cons, List.length_take, hrest, Nat.min_eq_left (by omega)]

theorem flatten_cut (h : ns.foldr (· + ·) 0 = l.length) : (cut ns l).flatten = l := by
  induction ns generalizing l with
  | nil =>
    rw [List.eq_nil_of_length_eq_zero h.symm]
    rfl
  | cons n ns ih =>
    rw [List.foldr_cons] at h
    have hrest := ih (l := l.drop n) (by rw [List.length_drop]; omega)
    rw [cut, List.flatten_cons, hrest, List.take_append_drop]

theorem mem_of_mem_cut {part : List α} {a : α} (h : part ∈ cut ns l) (ha : a ∈ part) : a ∈ l := by
  induction ns generalizing l with
  | nil => cases h
  | cons n ns ih =>
    obtain rfl | h := List.mem_cons.1 h
    · exact List.mem_of_mem_take ha
    · exact List.mem_of_mem_drop (ih h)

end Cut

@[simp] theorem digit?_digitChar (d : Fin 16) : digit? (digitChar d) = some d := by
  revert d
  decide

theorem not_mem_digits {c : Char} (hc : ∀ d, digitChar d ≠ c) (ds : List (Fin 16)) :
    c ∉ ds.map digitChar := by
  intro h
  obtain ⟨d, -, hd⟩ := List.mem_map.1 h
  exact hc d hd

theorem ofDigits?_digits (id : JobId) : ofDigits? (id.digits.map digitChar) = some id := by
  simp only [ofDigits?, mapM_map_of_forall digit?_digitChar, id.length_digits, dif_pos]

theorem ungroup?_text (id : JobId) : ungroup? id.text.toList = some (id.digits.map digitChar) := by
  have hlength : groups.foldr (· + ·) 0 = (id.digits.map digitChar).length := by
    rw [List.length_map, id.length_digits]
    rfl
  have hhyphen : ∀ part ∈ cut groups (id.digits.map digitChar), '-' ∉ part := fun part hpart h =>
    not_mem_digits (by decide) id.digits (mem_of_mem_cut hpart h)
  have hsplit : id.text.toList.splitOnP (· == '-') = cut groups (id.digits.map digitChar) := by
    rw [text, String.toList_ofList, ← List.splitOn_eq_splitOnP]
    exact List.splitOn_intercalate '-' hhyphen (List.cons_ne_nil _ _)
  rw [ungroup?, hsplit, if_pos (map_length_cut (Nat.le_of_eq hlength)), flatten_cut hlength]

theorem length_text (id : JobId) : id.text.toList.length = 36 := by
  have hlength : (id.digits.map digitChar).length = 32 := by
    rw [List.length_map, id.length_digits]
  rw [text, String.toList_ofList]
  simp only [cut, groups, List.intercalate_cons_cons, List.intercalate_singleton,
    List.length_append, List.length_take, List.length_drop, List.length_singleton, hlength]
  decide

theorem head?_text (id : JobId) : ∃ d, id.text.toList.head? = some (digitChar d) := by
  obtain ⟨d, ds, hds⟩ : ∃ d ds, id.digits = d :: ds :=
    List.exists_cons_of_length_eq_add_one id.length_digits
  refine ⟨d, ?_⟩
  rw [text, String.toList_ofList, hds]
  rfl

theorem ofText?_text (id : JobId) : ofText? id.text = some id := by
  have hlength := length_text id
  have hread : ungroup? id.text.toList >>= ofDigits? = some id := by
    rw [ungroup?_text, Option.bind_eq_bind, Option.bind_some, ofDigits?_digits]
  have hurn : ¬(id.text.toList.take 9).map Char.toLower = "urn:uuid:".toList := by
    obtain ⟨d, hd⟩ := head?_text id
    have hlower : ∀ d, (digitChar d).toLower ≠ 'u' := by decide
    intro h
    have hhead := congrArg List.head? h
    rw [List.head?_map, List.head?_take, if_neg (by decide), hd] at hhead
    exact hlower d (Option.some.inj hhead)
  rw [ofText?, if_neg (by omega), if_neg (by omega), if_neg hurn]
  exact hread

end JobId

namespace Datum

theorem texts?_ofTexts (l : List String) : (ofTexts l).texts? = some l := by
  have htext : ∀ s, text? (text s) = some s := fun _ => rfl
  exact mapM_map_of_forall htext l

theorem int64?_int (n : Int64) : (int n.toInt).int64? = some n := by
  have hlow : Int64.minValue.toInt ≤ n.toInt := Int64.minValue_le_toInt n
  have hhigh : n.toInt ≤ Int64.maxValue.toInt := Int64.toInt_le n
  rw [int64?, intWithin?, if_pos ⟨hlow, hhigh⟩, Option.map_some, Int64.ofInt_toInt]

theorem uint32?_int (n : UInt32) : (int n.toNat).uint32? = some n := by
  have hsize : UInt32.size = 4294967296 := rfl
  have hlow : 0 ≤ (n.toNat : Int) := Int.natCast_nonneg _
  have hhigh : (n.toNat : Int) ≤ (UInt32.size - 1 : Nat) := by
    have hlt := n.toNat_lt
    omega
  rw [uint32?, intWithin?, if_pos ⟨hlow, hhigh⟩, Option.map_some, Int.toNat_natCast,
    UInt32.ofNat_toNat]

theorem optional_map {α : Type} {write : α → Datum} {read : Datum → Option α}
    (hread : ∀ a, read (write a) = some a) (hnull : ∀ a, write a ≠ null) (value : Option α) :
    optional read (value.map write) = some value := by
  cases value with
  | none => rfl
  | some a =>
    rw [Option.map_some, optional, hread, Option.map_some]
    exact hnull a

/-- A number that is not finite is written as `null` and read as missing. -/
theorem optional_ofNumber (value : Option Binary64) :
    optional number? (value.map ofNumber) = some (value.filter Binary64.isFinite) := by
  cases value with
  | none => rfl
  | some x =>
    cases h : x.isFinite with
    | false => simp [ofNumber, optional, h, Option.filter]
    | true => simp [ofNumber, optional, number?, h, Option.filter]

end Datum

theorem Command.ofDatum?_toDatum (c : Command) : Command.ofDatum? c.toDatum = some c := by
  rw [ofDatum?, toDatum, Datum.fields?_record (by decide) rfl]
  simp only [Datum.required, Option.bind_eq_bind, Option.bind_some, Datum.text?,
    Datum.texts?_ofTexts]

theorem Task.ofDatum?_toDatum (t : Task) : Task.ofDatum? t.toDatum = some t := by
  rw [ofDatum?, toDatum, Datum.fields?_record (by decide) rfl]
  simp only [Datum.required, Option.bind_eq_bind, Option.bind_some, Datum.text?,
    Command.ofDatum?_toDatum]

/-- Settings as they come back from a document. -/
def JobSettings.stored (s : JobSettings) : JobSettings :=
  { s with fps := s.fps.filter Binary64.isFinite }

theorem JobSettings.stored_of_finite {s : JobSettings}
    (h : ∀ x, s.fps = some x → x.isFinite = true) : s.stored = s := by
  have hfps : s.fps.filter Binary64.isFinite = s.fps := by
    cases hx : s.fps with
    | none => rfl
    | some x => rw [Option.filter_some, h x hx, if_pos rfl]
  rw [stored, hfps]

theorem JobSettings.ofDatum?_toDatum (closed : Bool) (s : JobSettings) :
    JobSettings.ofDatum? closed s.toDatum = some s.stored := by
  have htext : ∀ value, Datum.optional Datum.text? (value.map .text) = some value :=
    Datum.optional_map (fun _ => rfl) (fun _ => Datum.noConfusion)
  have hbool : ∀ value, Datum.optional Datum.bool? (value.map .bool) = some value :=
    Datum.optional_map (fun _ => rfl) (fun _ => Datum.noConfusion)
  have hint : ∀ value : Option Int64,
      Datum.optional Datum.int64? (value.map fun n => .int n.toInt) = some value :=
    Datum.optional_map Datum.int64?_int (fun _ => Datum.noConfusion)
  rw [ofDatum?, toDatum, Datum.fields?_record (by decide) rfl]
  simp only [Datum.required, Datum.defaulted, Option.bind_eq_bind, Option.bind_some, Datum.text?,
    htext, hbool, hint, Datum.uint32?_int, Datum.optional_ofNumber, stored]

theorem JobFile.readCreated_eq_ok_iff {text : String} {t : Instant} :
    readCreated text = .ok t ↔ Rfc3339.read? text = some t := by
  unfold readCreated
  cases Rfc3339.read? text <;> simp

namespace Job

theorem statusOfDatum?_name (s : JobStatus) : statusOfDatum? (.text s.name) = some s :=
  JobStatus.ofName?_name s

theorem tasksOfDatum?_map (tasks : List Task) :
    tasksOfDatum? (.list (tasks.map Task.toDatum)) = some tasks :=
  mapM_map_of_forall Task.ofDatum?_toDatum tasks

/-- What comes back from the document of a job. -/
theorem ofDatum?_toDatum {j : Job}
    (h : Rfc3339.yearInRange (j.created.clockTime 0).date.year = true) :
    Job.ofDatum? j.toDatum = some { j with settings := j.settings.stored } := by
  have hid : idOfDatum? (.text j.id.text) = some j.id := by
    rw [idOfDatum?, Datum.text?, Option.bind_eq_bind, Option.bind_some, JobId.ofText?_text]
  have hcreated : createdOfDatum? (.text j.created.toRfc3339) = some j.created := by
    rw [createdOfDatum?, Datum.text?, Option.bind_eq_bind, Option.bind_some,
      Rfc3339.readLenient?_toRfc3339 h]
  rw [ofDatum?, toDatum, Datum.fields?_record (by decide) rfl]
  simp only [Datum.required, Datum.defaulted, Option.bind_eq_bind, Option.bind_some, Datum.text?,
    hid, hcreated, JobSettings.ofDatum?_toDatum, statusOfDatum?_name, tasksOfDatum?_map]

/-- A job with a creation time that can be given by hand comes back from its document, without its
frame rate if that is not a finite number. -/
theorem document_round_trip {text : String} {j : Job}
    (h : JobFile.readCreated text = .ok j.created) :
    ((∀ x, j.settings.fps = some x → x.isFinite = true) → Job.ofDatum? j.toDatum = some j) ∧
      ∀ x, j.settings.fps = some x → x.isFinite = false →
        Job.ofDatum? j.toDatum = some { j with settings := { j.settings with fps := none } } := by
  have hread := JobFile.readCreated_eq_ok_iff.1 h
  have hdocument := ofDatum?_toDatum (Rfc3339.yearInRange_of_read? hread)
  constructor
  · intro hfinite
    rw [hdocument, JobSettings.stored_of_finite hfinite]
  · intro x hx hfinite
    have hfps : j.settings.fps.filter Binary64.isFinite = none := by
      rw [hx, Option.filter_some, hfinite]
      rfl
    rw [hdocument, JobSettings.stored, hfps]

/-- A rejected job that was created in a leap second of the year before the year 0, with a task that
was added by hand. -/
def leapSecondJob (fps : Binary64) : Job :=
  { id := .nil
    name := "take \"1\""
    created := ⟨-62167219201, 1250000000, by decide, by decide⟩
    settings :=
      { frames := "1-5", chunkSize := some 0, outputRoot := "/render", pathComponents := 2
        outputPath := none, blendfile := "scene.blend", jobname := "\x7btake\x7d"
        filename := some "", fps := some fps, format := ⟨"PNG"⟩, imageExtension := ".png"
        hasPreviews := some false }
    status := .rejected
    tasks := [⟨"render-1", "blender", .named "noop"⟩] }

theorem document_round_trip_leapSecond :
    JobFile.readCreated "0000-01-01T00:59:60.25+01:00" =
        .ok (leapSecondJob (.zero true)).created ∧
      Job.ofDatum? (leapSecondJob (.zero true)).toDatum = some (leapSecondJob (.zero true)) ∧
      Job.ofDatum? (leapSecondJob .nan).toDatum =
        some { leapSecondJob .nan with
          settings := { (leapSecondJob .nan).settings with fps := none } } := by
  have hread : JobFile.readCreated "0000-01-01T00:59:60.25+01:00" =
      .ok (leapSecondJob (.zero true)).created := by decide +kernel
  have hfinite : ∀ x, (leapSecondJob (.zero true)).settings.fps = some x → x.isFinite = true := by
    rintro x ⟨⟩
    rfl
  exact ⟨hread, (document_round_trip hread).1 hfinite,
    (document_round_trip (j := leapSecondJob .nan) hread).2 .nan rfl rfl⟩

end Job

namespace Datum

theorem isWritable_ofTexts (l : List String) : (ofTexts l).IsWritable :=
  .list (List.forall_mem_map.2 fun s _ => .text s)

theorem isWritable_int64 (n : Int64) : (int n.toInt).IsWritable := by
  have hlow : Int64.minValue.toInt ≤ n.toInt := Int64.minValue_le_toInt n
  have hhigh : n.toInt ≤ Int64.maxValue.toInt := Int64.toInt_le n
  have hmax : Int64.maxValue.toInt < UInt64.size := by decide
  exact .int hlow (by omega)

theorem isWritable_uint32 (n : UInt32) : (int n.toNat).IsWritable := by
  have hlow : Int64.minValue.toInt ≤ 0 := by decide
  have hsize : UInt32.size ≤ UInt64.size := by decide
  have hlt : n.toNat < UInt32.size := n.toNat_lt
  exact .int (by omega) (by omega)

theorem isWritable_ofNumber (x : Binary64) : (ofNumber x).IsWritable := by
  unfold ofNumber
  split
  · rename_i hx
    exact .float hx
  · exact .null

theorem sublist_names (fields : List (String × Option Datum)) :
    ((fields.filterMap fun f => f.2.map (f.1, ·)).map Prod.fst).Sublist
      (fields.map Prod.fst) := by
  induction fields with
  | nil => exact .slnil
  | cons f fields ih =>
    obtain ⟨k, v⟩ := f
    cases v with
    | none => exact ih.cons k
    | some d => exact ih.cons_cons k

/-- A record names no entry twice, so it can be written if the values of its fields can. -/
theorem isWritable_record {names : List String} (hnames : names.Nodup)
    {values : List (Option Datum)} (hlength : names.length = values.length)
    (each : ∀ v ∈ values, ∀ d ∈ v, d.IsWritable) : (record (names.zip values)).IsWritable := by
  have hkeys := sublist_names (names.zip values)
  rw [List.map_fst_zip hlength.le] at hkeys
  refine .table (hkeys.nodup hnames) fun e he => ?_
  obtain ⟨⟨k, v⟩, hf, hv⟩ := List.mem_filterMap.1 he
  obtain ⟨d, hd, rfl⟩ := Option.map_eq_some_iff.1 hv
  exact each v (List.of_mem_zip hf).2 d hd

theorem isWritable_of_mem_map {α : Type} {write : α → Datum} (hwrite : ∀ a, (write a).IsWritable)
    (value : Option α) : ∀ d ∈ value.map write, d.IsWritable := by
  rintro d hd
  obtain ⟨a, -, rfl⟩ := Option.map_eq_some_iff.1 hd
  exact hwrite a

end Datum

theorem Command.isWritable_toDatum (c : Command) : c.toDatum.IsWritable := by
  refine Datum.isWritable_record (by decide) rfl ?_
  simp only [List.forall_mem_cons, Option.mem_some_iff, forall_eq', List.not_mem_nil,
    false_implies, implies_true, and_true]
  exact ⟨.text _, .text _, .text _, Datum.isWritable_ofTexts _, .text _,
    Datum.isWritable_ofTexts _⟩

theorem Task.isWritable_toDatum (t : Task) : t.toDatum.IsWritable := by
  refine Datum.isWritable_record (by decide) rfl ?_
  simp only [List.forall_mem_cons, Option.mem_some_iff, forall_eq', List.not_mem_nil,
    false_implies, implies_true, and_true]
  exact ⟨.text _, .text _, t.command.isWritable_toDatum⟩

theorem JobSettings.isWritable_toDatum (s : JobSettings) : s.toDatum.IsWritable := by
  refine Datum.isWritable_record (by decide) rfl ?_
  simp only [List.forall_mem_cons, Option.mem_some_iff, forall_eq', List.not_mem_nil,
    false_implies, implies_true, and_true]
  exact ⟨.text _, Datum.isWritable_of_mem_map Datum.isWritable_int64 _, .text _,
    Datum.isWritable_uint32 _, Datum.isWritable_of_mem_map .text _, .text _, .text _,
    Datum.isWritable_of_mem_map .text _, Datum.isWritable_of_mem_map Datum.isWritable_ofNumber _,
    .text _, .text _, Datum.isWritable_of_mem_map .bool _⟩

namespace Job

theorem isWritable_toDatum (job : Job) : job.toDatum.IsWritable := by
  refine Datum.isWritable_record (by decide) rfl ?_
  simp only [List.forall_mem_cons, Option.mem_some_iff, forall_eq', List.not_mem_nil,
    false_implies, implies_true, and_true]
  exact ⟨.text _, .text _, .text _, job.settings.isWritable_toDatum, .text _,
    .list (List.forall_mem_map.2 fun t _ => t.isWritable_toDatum)⟩

theorem isWritable_document (job : Job) (warnings : List JobWarning) :
    (job.document warnings).IsWritable := by
  refine .table (show ["job", "warnings"].Nodup by decide) ?_
  simp only [List.forall_mem_cons, List.not_mem_nil, false_implies, implies_true, and_true]
  exact ⟨job.isWritable_toDatum, Datum.isWritable_ofTexts _⟩

theorem parse?_emission (job : Job) (isPretty : Bool) (warnings : List JobWarning) :
    Json.parse? (job.emission isPretty warnings) =
      some (.table [("job", job.toDatum),
        ("warnings", .ofTexts (warnings.map JobWarning.message))]) := by
  rw [emission, Json.parse?_render (job.isWritable_document warnings), document]

end Job

def Command.entries (c : Command) : List (String × Datum) :=
  [("name", .text c.name), ("exe", .text c.exe), ("exe_args", .text c.exeArgs),
   ("args_before", .list (c.argsBefore.map .text)), ("blendfile", .text c.blendfile),
   ("args", .list (c.args.map .text))]

def Task.entries (t : Task) : List (String × Datum) :=
  [("id", .text t.id), ("worker_type", .text t.workerType), ("command", .table t.command.entries)]

/-- What a document holds of settings. A setting without a value has no entry. -/
def JobSettings.entries (s : JobSettings) : List (String × Datum) :=
  [("frames", .text s.frames)] ++
  (s.chunkSize.map fun n => ("chunk_size", .int n.toInt)).toList ++
  [("render_output_root", .text s.outputRoot),
   ("add_path_components", .int s.pathComponents.toNat)] ++
  (s.outputPath.map fun path => ("render_output_path", .text path)).toList ++
  [("blendfile", .text s.blendfile), ("jobname", .text s.jobname)] ++
  (s.filename.map fun name => ("filename", .text name)).toList ++
  (s.fps.map fun rate => ("fps", if rate.isFinite then .float rate else .null)).toList ++
  [("format", .text s.format.name), ("image_file_extension", .text s.imageExtension)] ++
  (s.hasPreviews.map fun previews => ("has_previews", .bool previews)).toList

/-- What a document holds of a job. -/
def Job.entries (job : Job) : List (String × Datum) :=
  [("id", .text job.id.text), ("name", .text job.name), ("created", .text job.created.toRfc3339),
   ("settings", .table job.settings.entries), ("status", .text job.status.name),
   ("tasks", .list (job.tasks.map fun task => .table task.entries))]

theorem JobSettings.toDatum_eq (s : JobSettings) : s.toDatum = .table s.entries := by
  obtain ⟨_, chunkSize, _, _, outputPath, _, _, filename, fps, _, _, hasPreviews⟩ := s
  cases chunkSize <;> cases outputPath <;> cases filename <;> cases fps <;> cases hasPreviews <;> rfl

namespace Job

theorem toDatum_eq (job : Job) : job.toDatum = .table job.entries := by
  have htasks : job.tasks.map Task.toDatum = job.tasks.map fun task => .table task.entries := rfl
  rw [entries, ← JobSettings.toDatum_eq, ← htasks]
  rfl

/-- Both layouts are read as one document, with the findings in order and the job spelled out. The
job is read from it again, if it has no frame rate that is not a finite number. Both layouts end
with a line break, and on one line that is the only control character, whatever the texts of the job
and of the findings hold. -/
theorem emission_layouts (job : Job) (warnings : List JobWarning) :
    (∀ isPretty, Json.parse? (job.emission isPretty warnings) =
      some (.table [("job", .table job.entries),
        ("warnings", .list (warnings.map fun w => .text w.message))])) ∧
    (Rfc3339.yearInRange (job.created.clockTime 0).date.year = true →
      (∀ x, job.settings.fps = some x → x.isFinite = true) →
      Job.ofDatum? (.table job.entries) = some job) ∧
    (∀ isPretty, (job.emission isPretty warnings).toList.getLast? = some '\n') ∧
    ∃ line, job.emission false warnings = line ++ "\n" ∧ ∀ c ∈ line.toList, 0x20 ≤ c.toNat := by
  refine ⟨fun isPretty => ?_, fun hyear hfinite => ?_, fun isPretty => ?_, ?_⟩
  · have htexts : Datum.ofTexts (warnings.map JobWarning.message) =
        .list (warnings.map fun w => .text w.message) := by
      rw [Datum.ofTexts, List.map_map]
      rfl
    rw [parse?_emission, toDatum_eq, htexts]
  · rw [← toDatum_eq, ofDatum?_toDatum hyear, JobSettings.stored_of_finite hfinite]
  · rw [emission, String.toList_append]
    exact List.getLast?_concat
  · refine ⟨Json.render false (job.document warnings), rfl, ?_⟩
    rw [Json.render, String.toList_ofList]
    exact Json.isVisible_compact (job.isWritable_document warnings)

/-- A job whose texts hold quotes and braces, and whose frame rate is zero with a sign. -/
theorem emission_layouts_leapSecond :
    (∀ isPretty, Json.parse? ((leapSecondJob (.zero true)).emission isPretty [.noPreview ⟨"HDR"⟩]) =
      some (.table
        [("job", .table
          [("id", .text "00000000-0000-0000-0000-000000000000"), ("name", .text "take \"1\""),
           ("created", .text "-0001-12-31T23:59:60.250Z"),
           ("settings", .table
             [("frames", .text "1-5"), ("chunk_size", .int 0),
              ("render_output_root", .text "/render"), ("add_path_components", .int 2),
              ("blendfile", .text "scene.blend"), ("jobname", .text "\x7btake\x7d"),
              ("filename", .text ""), ("fps", .float (.zero true)), ("format", .text "PNG"),
              ("image_file_extension", .text ".png"), ("has_previews", .bool false)]),
           ("status", .text "rejected"),
           ("tasks", .list [.table
             [("id", .text "render-1"), ("worker_type", .text "blender"),
              ("command", .table
                [("name", .text "noop"), ("exe", .text ""), ("exe_args", .text ""),
                 ("args_before", .list []), ("blendfile", .text ""), ("args", .list [])])]])]),
         ("warnings", .list [.text (JobWarning.noPreview ⟨"HDR"⟩).message])])) ∧
    Job.ofDatum? (.table (leapSecondJob (.zero true)).entries) =
      some (leapSecondJob (.zero true)) := by
  obtain ⟨hparse, hread, -⟩ := emission_layouts (leapSecondJob (.zero true)) [.noPreview ⟨"HDR"⟩]
  have hid : (leapSecondJob (.zero true)).id.text = "00000000-0000-0000-0000-000000000000" := by
    decide +kernel
  have hcreated : (leapSecondJob (.zero true)).created.toRfc3339 = "-0001-12-31T23:59:60.250Z" := by
    decide +kernel
  refine ⟨fun isPretty => ?_, hread (by decide +kernel) ?_⟩
  · rw [hparse, entries, hid, hcreated]
    rfl
  · rintro x ⟨⟩
    rfl

end Job
end RenderFarm

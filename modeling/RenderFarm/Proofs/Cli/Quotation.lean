import RenderFarm.Proofs.Cli.Preview
import RenderFarm.Proofs.Job.Faults

/-! What the errors about frames quote. An expression that cannot be read is quoted as it was
submitted, whatever is wrong with it. The limit on chunks is checked when the expression is no
longer there, and so this one error quotes the compact form of the frames that were read. -/
namespace RenderFarm

/-- What the fault is told with, as the text of the frames that were submitted. -/
def FrameFault.IsQuotedWith (submitted quoted : String) : FrameFault → Prop
  | .tooManyChunks _ _ =>
    ∃ frames, FrameSet.parse submitted = .ok frames ∧ quoted = frames.text
  | _ => quoted = submitted

def FrameSet.IsCompact (submitted : String) : Prop :=
  ∃ frames, FrameSet.parse submitted = .ok frames ∧ frames.text = submitted

/-- The submission is what is quoted, unless there are too many chunks of frames that are not
submitted in their compact form. -/
theorem FrameFault.IsQuotedWith.eq_submitted_iff {submitted quoted : String} {fault : FrameFault}
    (h : fault.IsQuotedWith submitted quoted) :
    quoted = submitted ↔
      ∀ size count, fault = .tooManyChunks size count → FrameSet.IsCompact submitted := by
  cases fault with
  | tooManyChunks size count =>
    obtain ⟨frames, hread, rfl⟩ := h
    constructor
    · intro hsame _ _ _
      exact ⟨frames, hread, hsame⟩
    · intro hcompact
      obtain ⟨compact, hcompactRead, htext⟩ := hcompact size count rfl
      obtain rfl : frames = compact := Except.ok.inj (hread.symm.trans hcompactRead)
      exact htext
  | noFrames | malformed | outOfRange | reversed =>
    exact iff_of_true h fun _ _ hlimit => nomatch hlimit

namespace FrameSet

variable {token : List Char} {expression : String} {fault : FrameFault}

theorem WrongToken.ne_tooManyChunks (h : WrongToken token fault) (size : Int) (count : Nat) :
    fault ≠ .tooManyChunks size count := by
  cases h with
  | frame _ wrong | start _ wrong | stop _ _ wrong =>
    cases wrong <;> exact FrameFault.noConfusion
  | order => exact FrameFault.noConfusion

/-- What cannot be read is quoted as it is, and the limit on chunks has no part in it. -/
theorem isQuotedWith_of_parse_eq_error {quoted : String}
    (h : parse expression = .error (.badFrames quoted fault)) :
    fault.IsQuotedWith expression quoted := by
  obtain ⟨fault, heq, hwrong⟩ := parse_eq_error_iff.1 h
  cases heq
  rcases hwrong with ⟨-, rfl⟩ | ⟨before, token, after, -, -, hwrong⟩
  · rfl
  · cases hfault : fault with
    | tooManyChunks size count => exact absurd hfault (hwrong.ne_tooManyChunks size count)
    | noFrames | malformed | outOfRange | reversed => rfl

end FrameSet

namespace Job

variable {zone : Zone} {options : TaskOptions} {job : Job} {quoted : String} {fault : FrameFault}

theorem contentFault_of_badFrames
    (h : (job.compile zone options).1 = .error (.badFrames quoted fault)) :
    job.settings.ContentFault (.badFrames quoted fault) := by
  by_cases hreceived : job.status = .received
  · by_cases htemplate : ∃ template, job.HasTemplate template
    · obtain ⟨template, htemplate⟩ := htemplate
      exact (compile_eq_error_iff hreceived htemplate).1 h
    · cases himage : job.settings.format.isVideo with
      | true =>
        rw [compile_of_video hreceived himage] at h
        cases h
      | false =>
        rw [compile_of_no_template hreceived himage (not_exists.1 htemplate)] at h
        cases h
  · rw [compile_of_not_received hreceived] at h
    cases h

theorem isQuotedWith_of_compile
    (h : (job.compile zone options).1 = .error (.badFrames quoted fault)) :
    fault.IsQuotedWith job.settings.frames quoted := by
  cases contentFault_of_badFrames h with
  | frames _ unread => exact FrameSet.isQuotedWith_of_parse_eq_error unread
  | chunkLimit _ read => exact ⟨_, read, rfl⟩

end Job

namespace Cli

variable {expression : String} {chunkSize : Int64} {quoted : String} {fault : FrameFault}

theorem isQuotedWith_of_previewed
    (h : previewed expression chunkSize = .error (.badFrames quoted fault)) :
    fault.IsQuotedWith expression quoted := by
  cases hread : FrameSet.parse expression with
  | error e =>
    rw [previewed, hread] at h
    cases h
    exact FrameSet.isQuotedWith_of_parse_eq_error hread
  | ok frames =>
    rw [previewed, hread] at h
    rcases FrameSet.chunks_eq_error_iff.1 h with ⟨-, heq⟩ | ⟨-, -, heq⟩
    · cases heq
    · cases heq
      exact ⟨frames, hread, rfl⟩

def jobWithFrames (frames : String) : Job :=
  let job := Job.fiveFrames "/jobs/shotA/scene.blend"
  { job with settings := { job.settings with frames, chunkSize := some 1 } }

/-- A job or a preview that fails for its frames is told of them as they were submitted, unless they
are cut into too many chunks. Only that error quotes the compact form of the frames, which is what
was submitted just if the submission is compact. -/
theorem frame_errors_quote (job : Job) (zone : Zone) (options : TaskOptions) (expression : String)
    (chunkSize : Int64) (quoted : String) (fault : FrameFault) :
    ((job.compile zone options).1 = .error (.badFrames quoted fault) →
      fault.IsQuotedWith job.settings.frames quoted ∧
        (quoted = job.settings.frames ↔
          ∀ size count, fault = .tooManyChunks size count →
            FrameSet.IsCompact job.settings.frames)) ∧
    (previewed expression chunkSize = .error (.badFrames quoted fault) →
      fault.IsQuotedWith expression quoted ∧
        (quoted = expression ↔
          ∀ size count, fault = .tooManyChunks size count → FrameSet.IsCompact expression) ∧
        frames expression chunkSize =
          { code := 1
            report := "Error: " ++
              ("Invalid frame expression " ++ Text.quote quoted ++ ": " ++ fault.message) ++
              "\n" }) := by
  constructor
  · intro h
    have hquoted := Job.isQuotedWith_of_compile h
    exact ⟨hquoted, hquoted.eq_submitted_iff⟩
  · intro h
    have hquoted := isQuotedWith_of_previewed h
    have hmessage : (JobError.badFrames quoted fault).message =
        "Invalid frame expression " ++ Text.quote quoted ++ ": " ++ fault.message := rfl
    rw [← hmessage]
    exact ⟨hquoted, hquoted.eq_submitted_iff, frames_of_error h⟩

theorem frame_errors_quote_reversed :
    ((jobWithFrames " 2,4-3 ").compile Zone.utc {}).1 =
        .error (.badFrames " 2,4-3 " (.reversed "4-3")) ∧
      previewed " 2,4-3 " 1 = .error (.badFrames " 2,4-3 " (.reversed "4-3")) ∧
      FrameFault.IsQuotedWith " 2,4-3 " " 2,4-3 " (.reversed "4-3") ∧
      (frames " 2,4-3 " 1).code = 1 := by
  have hcompile : ((jobWithFrames " 2,4-3 ").compile Zone.utc {}).1 =
      .error (.badFrames " 2,4-3 " (.reversed "4-3")) := by decide +kernel
  have hpreviewed : previewed " 2,4-3 " 1 = .error (.badFrames " 2,4-3 " (.reversed "4-3")) := by
    decide +kernel
  obtain ⟨hjob, hpreview⟩ := frame_errors_quote (jobWithFrames " 2,4-3 ") Zone.utc {} " 2,4-3 " 1
    " 2,4-3 " (.reversed "4-3")
  obtain ⟨-, -, hcode⟩ := hpreview hpreviewed
  exact ⟨hcompile, hpreviewed, (hjob hcompile).1, by rw [hcode]⟩

/-- One frame more than the limit, in two tokens, is quoted in the one token that it comes to. -/
theorem chunk_limit_hides_submission :
    ((jobWithFrames "0, 1-1000000").compile Zone.utc {}).1 =
        .error (.badFrames "0-1000000" (.tooManyChunks 1 1000001)) ∧
      previewed "0, 1-1000000" 1 =
        .error (.badFrames "0-1000000" (.tooManyChunks 1 1000001)) ∧
      "0-1000000" ≠ (jobWithFrames "0, 1-1000000").settings.frames :=
  ⟨by decide +kernel, by decide +kernel, by decide⟩

end Cli
end RenderFarm

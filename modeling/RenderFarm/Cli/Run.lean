import RenderFarm.Cli.Arguments
import RenderFarm.Files.Directory
import RenderFarm.JobFile

/-! What the commands do. `compile` writes a compiled job, `validate` compiles one and tells what
came of it, and `frames` shows how frames are cut into chunks. A command that fails reports a text,
and a cause under it if there is one. -/
namespace RenderFarm
namespace Cli

inductive Failure where
  | configUnreadable (path : String) (fault : FileFault)
  | configMalformed (path : String)
  | badConfig (fault : ConfigFault)
  | jobUnreadable (path : String) (fault : FileFault)
  | badJobFile (path : String) (fault : JobFileFault)
  | rejected (name : String) (error : JobError)
  | badFrames (error : JobError)
  | outputUncreatable (path : String) (fault : FileFault)
  deriving DecidableEq

namespace Failure

def text : Failure → String
  | configUnreadable path _ => "Failed to read config file: " ++ Text.quote path
  | configMalformed path => "Failed to parse config file: " ++ Text.quote path
  | badConfig fault => fault.message
  | jobUnreadable path _ => "Failed to read job file: " ++ Text.quote path
  | badJobFile path .malformed => "Failed to parse job file: " ++ Text.quote path
  | badJobFile path (.badSettings _) =>
    "Job file " ++ Text.quote path ++ " has invalid settings"
  | badJobFile _ (.badCreated time) =>
    "Invalid creation time " ++ Text.quote time ++ ", expected RFC 3339"
  | rejected name error => "Job " ++ Text.quote name ++ " rejected [" ++ error.kind ++ "]"
  | badFrames error => error.message
  | outputUncreatable path _ => "Failed to create output file: " ++ Text.quote path

def cause? : Failure → Option String
  | configUnreadable _ fault => some fault.message
  | configMalformed _ => some "not a TOML text with the fields of a configuration"
  | badConfig _ => none
  | jobUnreadable _ fault => some fault.message
  | badJobFile _ .malformed => some "not a TOML text with the fields of a job file"
  | badJobFile _ (.badSettings error) => some error.message
  | badJobFile _ (.badCreated _) => some "not a date and time with an offset"
  | rejected _ error => some error.message
  | badFrames _ => none
  | outputUncreatable _ fault => some fault.message

def report (f : Failure) : String :=
  "Error: " ++ f.text ++ "\n" ++
    match f.cause? with
    | none => ""
    | some cause => "\nCaused by:\n    " ++ cause ++ "\n"

end Failure

/-- The end of a command: its exit code, what it printed, and what it reported of an error. What it
logs on its way is not part of that, although it goes where the report goes. -/
structure Outcome where
  code : Nat
  stdout : String := ""
  report : String := ""
  deriving DecidableEq

/-- The standard error of a command that logs nothing. -/
def Outcome.stderr (o : Outcome) : String := o.report

/-- What a command depends on besides its arguments and files. -/
structure Surroundings where
  zone : Zone
  home : String
  origin : JobOrigin

def versionText : String := "renderforge 0.1.0\n"

def helpText : String :=
  "Render farm job compiler\n\nUsage: renderforge [OPTIONS] <COMMAND>\n\n" ++
    "Commands: compile <JOB>, frames <EXPR>, validate <JOB>, version, help\n"

def usageText : String := "error: wrong arguments\n\nFor more information, try '--help'.\n"

section Files

variable {m : Type → Type} [Monad m] [Files m]

/-- The configuration in a file. -/
def readConfig (path : String) : m (Except Failure Config) := do
  match ← Files.read path with
  | .error fault => return .error (.configUnreadable path fault)
  | .ok text =>
    match Config.parse? text with
    | none => return .error (.configMalformed path)
    | some config =>
      match config.compiler.check with
      | .error fault => return .error (.badConfig fault)
      | .ok () => return .ok config

/-- Where a configuration is looked for if none is named. -/
def standardPaths (home : String) : List String :=
  ["./renderforge.toml", home ++ "/.config/renderforge/config.toml",
   "/etc/renderforge/config.toml"]

/-- The configuration in the first of the given files that is there, or the standard one. -/
def readFirstConfig : List String → m (Except Failure Config)
  | [] => return .ok {}
  | path :: paths => do
    if ← Files.present path then readConfig path else readFirstConfig paths

def loadConfig (home : String) : Option String → m (Except Failure Config)
  | some path => readConfig path
  | none => readFirstConfig (standardPaths home)

def loadJob (config : Config) (origin : JobOrigin) (created : Option String) (path : String) :
    m (Except Failure Job) := do
  match ← Files.read path with
  | .error fault => return .error (.jobUnreadable path fault)
  | .ok text =>
    return (JobFile.load config.compiler origin created text).mapError (.badJobFile path)

def compiledJob (config : Config) (s : Surroundings) (created : Option String) (path : String) :
    m (Except Failure (CompileReport × Job)) := do
  match ← loadJob config s.origin created path with
  | .error f => return .error f
  | .ok job =>
    match job.compile s.zone config.compiler.tasks with
    | (.error e, _) => return .error (.rejected job.name e)
    | (.ok report, job) => return .ok (report, job)

/-- Writes a compiled job to a file, or gives it as what is printed. -/
def emit (text : String) : Option String → m (Except Failure String)
  | none => return .ok text
  | some path => do
    match ← Files.write path text with
    | .error fault => return .error (.outputUncreatable path fault)
    | .ok () => return .ok ""

/-- The end of a command that has printed something before it failed or came to its result. -/
def finish (printed : String) : Except Failure String → Outcome
  | .error f => { code := 1, stdout := printed, report := f.report }
  | .ok text => { code := 0, stdout := printed ++ text }

def compile (s : Surroundings) (config : Option String) (job : String)
    (created out : Option String) : m Outcome := do
  match ← loadConfig s.home config with
  | .error f => return finish "" (.error f)
  | .ok config =>
    match ← compiledJob config s created job with
    | .error f => return finish "" (.error f)
    | .ok (report, job) =>
      return finish "" (← emit (job.emission config.pretty report.warnings) out)

def summary (report : CompileReport) (job : Job) (frames : FrameSet) : String :=
  let settings := job.settings
  String.join <| List.map (· ++ "\n") <|
    ["✓ Job file is valid",
     "  Name: " ++ job.name,
     "  Format: " ++ settings.format.name,
     "  Frames: " ++ frames.text ++ " (" ++ toString frames.size ++ " frames)",
     "  Chunks: " ++ toString report.taskCount ++ " of at most " ++
       toString settings.effectiveChunkSize.toInt,
     "  Output: " ++ report.outputPath] ++
    (job.tasks.head?.toList.map fun task =>
      "  Worker placeholders: " ++ ", ".intercalate task.command.placeholders) ++
    report.warnings.map fun w => "  Warning: " ++ w.message

def validate (s : Surroundings) (config : Option String) (job : String) : m Outcome := do
  match ← loadConfig s.home config with
  | .error f => return finish "" (.error f)
  | .ok config =>
    let printed := "Validating job file: " ++ Text.quote job ++ "\n"
    match ← compiledJob config s none job with
    | .error f => return finish printed (.error f)
    | .ok (report, job) =>
      return finish printed <|
        match FrameSet.parse job.settings.frames with
        | .error e => .error (.badFrames e)
        | .ok frames => .ok (summary report job frames)

end Files

/-- The chunks of a frame expression, one a line, as text and as the renderer reads them. -/
def frames (expression : String) (chunkSize : Int64) : Outcome :=
  finish "" <|
    match FrameSet.parse expression >>= FrameSet.chunks chunkSize.toInt with
    | .error e => .error (.badFrames e)
    | .ok chunks =>
      .ok (String.join (chunks.map fun c => c.text ++ "\t" ++ c.renderRange ++ "\n"))

def run {m : Type → Type} [Monad m] [Files m] (s : Surroundings) (args : List String) :
    m Outcome :=
  match parse args with
  | .error .usage => return { code := 2, report := usageText }
  | .error .help => return { code := 0, stdout := helpText }
  | .error .version => return { code := 0, stdout := versionText }
  | .ok (.compile config job created out) => compile s config job created out
  | .ok (.frames expression chunkSize) => return frames expression chunkSize
  | .ok (.validate config job) => validate s config job
  | .ok .version => return { code := 0, stdout := versionText }

end Cli
end RenderFarm

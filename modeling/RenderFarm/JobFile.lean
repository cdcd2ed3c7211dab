import RenderFarm.Job
import RenderFarm.Toml.Document

/-! The two kinds of files that the farm reads: its configuration, and job files. A job file holds
settings of a job as a TOML text, with a name and a creation time if they are wanted. Loading one
gives a received job whose settings are checked and completed: it has a chunk size, an absolute
output root, and a derived output path. -/
namespace RenderFarm

structure CompilerConfig where
  tasks : TaskOptions := {}
  defaultChunkSize : Int64 := JobSettings.defaultChunkSize
  deriving DecidableEq

structure Config where
  compiler : CompilerConfig := {}
  /-- Whether documents are laid out over several lines. -/
  pretty : Bool := false
  deriving DecidableEq

inductive ConfigFault where
  | blank (key : String)
  | chunkSizeTooSmall (size : Int64)
  deriving DecidableEq

def ConfigFault.message : ConfigFault → String
  | blank key => "compiler." ++ key ++ " cannot be empty"
  | chunkSizeTooSmall size =>
    "compiler.default_chunk_size must be at least 1, got " ++ toString size.toInt

namespace CompilerConfig

def fieldNames : List String :=
  ["worker_type", "command_name", "startup_script", "default_chunk_size"]

def toDatum (c : CompilerConfig) : Datum :=
  .record (fieldNames.zip
    [some (.text c.tasks.workerType), some (.text c.tasks.commandName),
     some (.text c.tasks.startupScript), some (.int c.defaultChunkSize.toInt)])

def ofDatum? (closed : Bool) (d : Datum) : Option CompilerConfig :=
  let standard : CompilerConfig := {}
  match d.fields? closed fieldNames with
  | some [workerType, commandName, startupScript, chunkSize] => do
    some
      { tasks :=
          { workerType := ← Datum.defaulted standard.tasks.workerType Datum.text? workerType
            commandName := ← Datum.defaulted standard.tasks.commandName Datum.text? commandName
            startupScript :=
              ← Datum.defaulted standard.tasks.startupScript Datum.text? startupScript }
        defaultChunkSize := ← Datum.defaulted standard.defaultChunkSize Datum.int64? chunkSize }
  | _ => none

/-- The texts that have to be there, with their keys, in the order in which they are checked. -/
def requirements (c : CompilerConfig) : List (String × String) :=
  [("worker_type", c.tasks.workerType), ("command_name", c.tasks.commandName),
   ("startup_script", c.tasks.startupScript)]

def check (c : CompilerConfig) : Except ConfigFault Unit :=
  match c.requirements.find? fun r => Text.isBlankText r.2 with
  | some (key, _) => .error (.blank key)
  | none =>
    if c.defaultChunkSize.toInt < 1 then .error (.chunkSizeTooSmall c.defaultChunkSize) else .ok ()

end CompilerConfig

namespace Config

def fieldNames : List String := ["compiler", "output"]

def outputFieldNames : List String := ["pretty"]

def toDatum (c : Config) : Datum :=
  .record (fieldNames.zip
    [some c.compiler.toDatum, some (.record (outputFieldNames.zip [some (.bool c.pretty)]))])

/-- Whether a table of output options asks for layout. -/
def prettyOfDatum? (closed : Bool) (d : Datum) : Option Bool :=
  match d.fields? closed outputFieldNames with
  | some [pretty] => Datum.defaulted false Datum.bool? pretty
  | _ => none

def ofDatum? (closed : Bool) (d : Datum) : Option Config :=
  match d.fields? closed fieldNames with
  | some [compiler, output] => do
    some
      { compiler := ← Datum.defaulted {} (CompilerConfig.ofDatum? closed) compiler
        pretty := ← Datum.defaulted false (prettyOfDatum? closed) output }
  | _ => none

def parse? (text : String) : Option Config := Toml.parse? text >>= ofDatum? false

end Config

structure JobFile where
  name : Option String
  created : Option String
  settings : JobSettings

inductive JobFileFault where
  | malformed
  | badSettings (error : JobError)
  | badCreated (text : String)
  deriving DecidableEq

/-- What a job gets that its file does not say: an identifier, the time if it has none of its own,
and the directory that relative paths start from. -/
structure JobOrigin where
  id : JobId
  now : Instant
  directory : String

namespace JobFile

def fieldNames : List String := ["name", "created", "settings"]

def ofDatum? (d : Datum) : Option JobFile :=
  match d.fields? false fieldNames with
  | some [name, created, settings] => do
    some
      { name := ← Datum.optional Datum.text? name
        created := ← Datum.optional Datum.text? created
        settings := ← Datum.required (JobSettings.ofDatum? false) settings }
  | _ => none

def parse? (text : String) : Option JobFile := Toml.parse? text >>= ofDatum?

def readCreated (text : String) : Except JobFileFault Instant :=
  match Rfc3339.read? text with
  | some t => .ok t
  | none => .error (.badCreated text)

def below (directory path : String) : String :=
  if directory.toList.getLast? = some '/' then directory ++ path else directory ++ "/" ++ path

def absoluteRoot (directory root : String) : String :=
  if Path.isAbsolute root then root else below directory root

def sizedSettings (config : CompilerConfig) (file : JobFile) : JobSettings :=
  { file.settings with chunkSize := file.settings.chunkSize <|> some config.defaultChunkSize }

/-- The settings with everything filled in that follows from others. -/
def completedSettings (config : CompilerConfig) (directory : String) (file : JobFile) :
    JobSettings :=
  let sized := file.sizedSettings config
  JobSettings.derive { sized with outputRoot := absoluteRoot directory sized.outputRoot }

/-- The name of the job: that of the file unless it is blank, or else the one in the settings. -/
def jobName (file : JobFile) : String :=
  (file.name.filter fun n => !Text.isBlankText n).getD file.settings.jobname

/-- The job of a file. A creation time that is given counts before that of the file. -/
def job (config : CompilerConfig) (origin : JobOrigin) (created : Option String) (file : JobFile) :
    Except JobFileFault Job :=
  match (file.sizedSettings config).check with
  | .error e => .error (.badSettings e)
  | .ok () => do
    let time ← match created <|> file.created with
      | none => .ok origin.now
      | some text => readCreated text
    .ok (.submit origin.id file.jobName time (file.completedSettings config origin.directory))

def load (config : CompilerConfig) (origin : JobOrigin) (created : Option String) (text : String) :
    Except JobFileFault Job :=
  match parse? text with
  | none => .error .malformed
  | some file => file.job config origin created

end JobFile
end RenderFarm

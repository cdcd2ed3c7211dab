import RenderFarm.Datum
import RenderFarm.Job.Error
import RenderFarm.Path
import RenderFarm.Template

/-! Settings of a render job: their form in documents, what they have to fulfil, and the output
path that they call for. `check` is made when they enter the farm: required texts are not blank, in
a fixed order, and the number of path components is within its limit. `validate` is made when a job
is compiled: it renders images, and a format without previews gives a warning. The output path is
made of the output root, names of the blend file's directories, the job's name, the time of its
creation, and the frame number; the last two are filled in later, the time when the job is compiled
and the number by the renderer. -/
namespace RenderFarm

structure OutputFormat where
  name : String
  deriving DecidableEq

namespace OutputFormat

/-- The formats that render to a video instead of a sequence of images. -/
def videoNames : List String := ["FFMPEG", "AVI_RAW", "AVI_JPEG"]

/-- The image formats that FFmpeg cannot read back: the older command-line names, and the names
that scene files hold. -/
def ffmpegIncompatibleNames : List String :=
  ["EXR", "MULTILAYER", "OPEN_EXR", "OPEN_EXR_MULTILAYER"]

def isVideo (f : OutputFormat) : Bool := videoNames.contains f.name

def isFfmpegIncompatible (f : OutputFormat) : Bool := ffmpegIncompatibleNames.contains f.name

/-- The name on the renderer's command line, which knows `TARGA` by its short name only. -/
def cliName (f : OutputFormat) : String := if f.name = "TARGA" then "TGA" else f.name

end OutputFormat

structure JobSettings where
  /-- The frames to render, as an expression. -/
  frames : String
  chunkSize : Option Int64
  outputRoot : String
  /-- How many names of the blend file's directories the output path takes. -/
  pathComponents : UInt32
  /-- The output path, a template until the job is compiled. -/
  outputPath : Option String
  blendfile : String
  jobname : String
  /-- The name of the blend file. -/
  filename : Option String
  fps : Option Binary64
  format : OutputFormat
  imageExtension : String
  hasPreviews : Option Bool
  deriving DecidableEq

namespace JobSettings

def fieldNames : List String :=
  ["frames", "chunk_size", "render_output_root", "add_path_components", "render_output_path",
   "blendfile", "jobname", "filename", "fps", "format", "image_file_extension", "has_previews"]

def toDatum (s : JobSettings) : Datum :=
  .record (fieldNames.zip
    [some (.text s.frames), s.chunkSize.map fun n => .int n.toInt, some (.text s.outputRoot),
     some (.int s.pathComponents.toNat), s.outputPath.map .text, some (.text s.blendfile),
     some (.text s.jobname), s.filename.map .text, s.fps.map .ofNumber, some (.text s.format.name),
     some (.text s.imageExtension), s.hasPreviews.map .bool])

def ofDatum? (closed : Bool) (d : Datum) : Option JobSettings :=
  match d.fields? closed fieldNames with
  | some [frames, chunkSize, outputRoot, pathComponents, outputPath, blendfile, jobname, filename,
      fps, format, imageExtension, hasPreviews] => do
    some
      { frames := ← Datum.required Datum.text? frames
        chunkSize := ← Datum.optional Datum.int64? chunkSize
        outputRoot := ← Datum.required Datum.text? outputRoot
        pathComponents := ← Datum.defaulted 0 Datum.uint32? pathComponents
        outputPath := ← Datum.optional Datum.text? outputPath
        blendfile := ← Datum.required Datum.text? blendfile
        jobname := ← Datum.required Datum.text? jobname
        filename := ← Datum.optional Datum.text? filename
        fps := ← Datum.optional Datum.number? fps
        format := ⟨← Datum.required Datum.text? format⟩
        imageExtension := ← Datum.required Datum.text? imageExtension
        hasPreviews := ← Datum.optional Datum.bool? hasPreviews }
  | _ => none

def defaultChunkSize : Int64 := 1

def effectiveChunkSize (s : JobSettings) : Int64 := s.chunkSize.getD defaultChunkSize

end JobSettings

inductive JobWarning where
  | noPreview (format : OutputFormat)
  deriving DecidableEq

def JobWarning.message : JobWarning → String
  | noPreview format =>
    "render format " ++ format.name ++
      " cannot be read by FFmpeg; no preview video can be made from this job's output"

namespace JobSettings

/-- The texts that have to be there, with their keys, in the order in which they are checked. -/
def requirements (s : JobSettings) : List (String × String) :=
  [("frames", s.frames), ("render_output_root", s.outputRoot), ("blendfile", s.blendfile),
   ("jobname", s.jobname), ("image_file_extension", s.imageExtension), ("format", s.format.name)]

def check (s : JobSettings) : Except JobError Unit :=
  match s.requirements.find? fun r => Text.isBlankText r.2 with
  | some (key, _) => .error (.badSettings (.missing key))
  | none =>
    if maxPathComponents < s.pathComponents.toNat then
      .error (.badSettings (.tooManyPathComponents s.pathComponents.toNat))
    else .ok ()

def validate (s : JobSettings) : Except JobError (List JobWarning) :=
  if s.format.isVideo then .error (.videoFormat s.format.name)
  else .ok (if s.format.isFfmpegIncompatible then [.noPreview s.format] else [])

def timestampName : String := "timestamp"

def timestampPlaceholder : String :=
  String.ofList (Template.placeholderText timestampName.toList)

def frameNumberPattern : String := "######"

def derivedPath (s : JobSettings) : String :=
  Path.join (s.outputRoot :: Path.lastDirectories s.pathComponents.toNat s.blendfile ++
    [s.jobname, timestampPlaceholder, frameNumberPattern])

/-- The settings with the fields filled in that follow from others: the output path in any case, and
the name of the blend file if it is missing and there is one. -/
def derive (s : JobSettings) : JobSettings :=
  let name := Path.basename s.blendfile
  { s with
    outputPath := some s.derivedPath
    filename := s.filename <|> (if name = "" then none else some name) }

@[simp] theorem derivedPath_derive (s : JobSettings) : s.derive.derivedPath = s.derivedPath := rfl

@[simp] theorem outputPath_derive (s : JobSettings) :
    s.derive.outputPath = some s.derivedPath := rfl

end JobSettings
end RenderFarm

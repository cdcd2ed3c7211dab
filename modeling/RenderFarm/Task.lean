import RenderFarm.Frames
import RenderFarm.Job.Settings

/-! Tasks, the units of work that workers take from the farm, and their commands. A command is a
description: the worker that takes the task fills in the placeholders and runs it. Workers stage the
files of a job under the names of the blend file and its directory; every task of a job runs the
same command but for the frames that it renders. -/
namespace RenderFarm

structure Command where
  /-- The kind of command, by which a worker chooses how to run it. -/
  name : String
  exe : String
  /-- More arguments of the executable, as one text. -/
  exeArgs : String
  argsBefore : List String
  blendfile : String
  args : List String
  deriving DecidableEq

namespace Command

def named (name : String) : Command :=
  { name, exe := "", exeArgs := "", argsBefore := [], blendfile := "", args := [] }

/-- The parts of the command line in order; empty ones are left out. -/
def commandLine (c : Command) : List String :=
  (c.exe :: c.exeArgs :: c.argsBefore ++ c.blendfile :: c.args).filter (· != "")

/-- The names that the worker has to fill in, each once, in the order of their first use. -/
def placeholders (c : Command) : List String :=
  (c.commandLine.flatMap RenderFarm.placeholders).eraseDups

def fieldNames : List String := ["name", "exe", "exe_args", "args_before", "blendfile", "args"]

def toDatum (c : Command) : Datum :=
  .record (fieldNames.zip
    [some (.text c.name), some (.text c.exe), some (.text c.exeArgs), some (.ofTexts c.argsBefore),
     some (.text c.blendfile), some (.ofTexts c.args)])

def ofDatum? (d : Datum) : Option Command :=
  match d.fields? true fieldNames with
  | some [name, exe, exeArgs, argsBefore, blendfile, args] => do
    some
      { name := ← Datum.required Datum.text? name
        exe := ← Datum.required Datum.text? exe
        exeArgs := ← Datum.required Datum.text? exeArgs
        argsBefore := ← Datum.required Datum.texts? argsBefore
        blendfile := ← Datum.required Datum.text? blendfile
        args := ← Datum.required Datum.texts? args }
  | _ => none

end Command

structure Task where
  id : String
  /-- What a worker must be able to do to take the task. -/
  workerType : String
  command : Command
  deriving DecidableEq

namespace Task

def renderId (c : Chunk) : String := "render-" ++ c.text

def fieldNames : List String := ["id", "worker_type", "command"]

def toDatum (t : Task) : Datum :=
  .record (fieldNames.zip
    [some (.text t.id), some (.text t.workerType), some t.command.toDatum])

def ofDatum? (d : Datum) : Option Task :=
  match d.fields? true fieldNames with
  | some [id, workerType, command] => do
    some
      { id := ← Datum.required Datum.text? id
        workerType := ← Datum.required Datum.text? workerType
        command := ← Datum.required Command.ofDatum? command }
  | _ => none

end Task

/-- What all tasks have in common, whatever the job. -/
structure TaskOptions where
  workerType : String := "blender"
  commandName : String := "blender-render"
  /-- The name of the script that the renderer runs first. -/
  startupScript : String := "startup_script.py"
  deriving DecidableEq

namespace Task

def stagedPath (parts : List String) : String :=
  Path.join ("\x7bclientStoragePath\x7d" :: "\x7bjobSubPath\x7d" :: parts)

def renderedPath (parts : List String) : String :=
  Path.join ("\x7bclientStoragePath\x7d" :: "\x7brenderSubPath\x7d" :: parts)

/-- Turns the compositor on, whatever the blend file says. -/
def compositingExpression : String :=
  "import bpy; bcs = bpy.context.scene; bcs.render.use_compositing = True; bcs.use_nodes = True"

/-- The command that renders a chunk of the blend file `file`, staged in the directory `parent`. The
renderer leaves the arguments after the double hyphen to the start-up script. -/
def renderCommand (options : TaskOptions) (format : OutputFormat) (parent file outputName : String)
    (chunk : Chunk) : Command where
  name := options.commandName
  exe := "\x7bblender\x7d"
  exeArgs := "\x7bblenderArgs\x7d"
  argsBefore := ["-P", stagedPath [options.startupScript]]
  blendfile := stagedPath [parent, file]
  args :=
    ["-noaudio",
     "--render-output", renderedPath [parent, outputName],
     "--render-format", format.cliName,
     "--render-frame", chunk.renderRange,
     "--python-expr", compositingExpression,
     "--", "--custom-script",
     "--device-type", "\x7bdeviceType\x7d"]

/-- One task for each chunk, in order. The images take the base name of the output path. -/
def author (options : TaskOptions) (settings : JobSettings) (outputPath : String)
    (chunks : List Chunk) : Except JobError (List Task) :=
  match Path.parentAndFile? settings.blendfile with
  | none => .error (.badSettings (.unstageable settings.blendfile))
  | some (parent, file) =>
    .ok (chunks.map fun chunk =>
      { id := renderId chunk
        workerType := options.workerType
        command :=
          renderCommand options settings.format parent file (Path.basename outputPath) chunk })

end Task
end RenderFarm

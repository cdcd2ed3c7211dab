import RenderFarm.Text.Quoted

/-! Why a job cannot be compiled, and what is told of the job then. An identifier is thirty-two
hexadecimal digits, written in lower case and in groups of 8, 4, 4, 4 and 12; it is read in either
case, grouped, ungrouped, in braces, or as a URN. Each cause is a constructor; `message` gives the
wording and `kind` the stable name that goes with a rejection. -/
namespace RenderFarm

structure JobId where
  digits : List (Fin 16)
  length_digits : digits.length = 32
  deriving DecidableEq

namespace JobId

def groups : List Nat := [8, 4, 4, 4, 12]

def nil : JobId := ⟨List.replicate 32 0, by simp⟩

/-- A list cut into consecutive parts of the given lengths. -/
def cut {α : Type} : List Nat → List α → List (List α)
  | [], _ => []
  | n :: ns, l => l.take n :: cut ns (l.drop n)

def digitChar (d : Fin 16) : Char := Nat.digitChar d.val

def text (id : JobId) : String :=
  String.ofList (List.intercalate ['-'] (cut groups (id.digits.map digitChar)))

def digit? (c : Char) : Option (Fin 16) :=
  Text.hexValue? c >>= fun n => if h : n < 16 then some ⟨n, h⟩ else none

def ofDigits? (cs : List Char) : Option JobId :=
  match cs.mapM digit? with
  | none => none
  | some ds => if h : ds.length = 32 then some ⟨ds, h⟩ else none

/-- The digits of a grouped form, if the hyphens stand in their places. -/
def ungroup? (cs : List Char) : Option (List Char) :=
  let parts := cs.splitOnP (· == '-')
  if parts.map List.length = groups then some parts.flatten else none

def ofText? (s : String) : Option JobId :=
  let cs := s.toList
  if cs.length = 32 then ofDigits? cs
  else
    let grouped :=
      if cs.length = 38 ∧ cs.head? = some '\x7b' ∧ cs.getLast? = some '\x7d' then
        cs.tail.dropLast
      else if (cs.take 9).map Char.toLower = "urn:uuid:".toList then cs.drop 9
      else cs
    ungroup? grouped >>= ofDigits?

/-- The identifier of sixteen random bytes. Two digits tell that it is a random one. -/
def ofRandom (bytes : List UInt8) : JobId :=
  let digits : List (Fin 16) := bytes.flatMap fun b => [.ofNat 16 (b.toNat / 16), .ofNat 16 b.toNat]
  let marked := (digits.set 12 4).set 16 (8 + digits.getD 16 0 % 4)
  if h : marked.length = 32 then ⟨marked, h⟩ else nil

end JobId

inductive JobStatus where
  | received
  | validated
  | pathResolved
  | chunked
  | tasksAuthored
  | emitted
  | rejected
  deriving DecidableEq

namespace JobStatus

def all : List JobStatus :=
  [received, validated, pathResolved, chunked, tasksAuthored, emitted, rejected]

/-- The word for a status in messages and documents. -/
def name : JobStatus → String
  | received => "received"
  | validated => "validated"
  | pathResolved => "path_resolved"
  | chunked => "chunked"
  | tasksAuthored => "tasks_authored"
  | emitted => "emitted"
  | rejected => "rejected"

def ofName? (s : String) : Option JobStatus := all.find? (·.name == s)

@[simp] theorem ofName?_name (s : JobStatus) : ofName? s.name = some s := by
  cases s <;> decide

end JobStatus

inductive FrameFault where
  | noFrames
  | malformed (token : String)
  | outOfRange (digits token : String)
  | reversed (token : String)
  | tooManyChunks (size : Int) (count : Nat)
  deriving DecidableEq

inductive SettingsFault where
  | missing (key : String)
  | tooManyPathComponents (n : Nat)
  | unstageable (blendfile : String)
  | notReceived (id : JobId) (status : JobStatus)
  deriving DecidableEq

inductive JobError where
  | videoFormat (format : String)
  | noOutputPath
  | badFrames (expression : String) (fault : FrameFault)
  | badChunkSize (size : Int)
  | badSettings (fault : SettingsFault)
  deriving DecidableEq

/-- The most chunks that a frame selection may be cut into. -/
def maxChunks : Nat := 1000000

/-- The most directory names that an output path may take from the blend file. -/
def maxPathComponents : Nat := 32

def FrameFault.message : FrameFault → String
  | noFrames => "no frames given"
  | malformed token => Text.quote token ++ " is not a frame number or range"
  | outOfRange digits token =>
    "frame " ++ digits ++ " in " ++ Text.quote token ++ " is out of range"
  | reversed token => "range " ++ Text.quote token ++ " ends before it starts"
  | tooManyChunks size count =>
    "chunk size " ++ toString size ++ " gives " ++ toString count ++
      " chunks, more than the limit of " ++ toString maxChunks

def SettingsFault.message : SettingsFault → String
  | missing key => key ++ " is required"
  | tooManyPathComponents n =>
    "add_path_components must be between 0 and " ++ toString maxPathComponents ++ ", got " ++
      toString n
  | unstageable blendfile =>
    "blendfile " ++ Text.quote blendfile ++ " has no parent directory to stage it from"
  | notReceived id status =>
    "job " ++ id.text ++ " is " ++ status.name ++ ", only received jobs can be compiled"

namespace JobError

def message : JobError → String
  | videoFormat format => "This job type only renders images, and not \"" ++ format ++ "\""
  | noOutputPath => "no render_output_path setting!"
  | badFrames expression fault =>
    "Invalid frame expression " ++ Text.quote expression ++ ": " ++ fault.message
  | badChunkSize size => "Invalid chunk size " ++ toString size ++ ": must be at least 1"
  | badSettings fault => "Invalid settings: " ++ fault.message

def kind : JobError → String
  | videoFormat _ => "unsupported_format"
  | noOutputPath => "unresolved_render_output_path"
  | badFrames _ _ => "invalid_frame_expression"
  | badChunkSize _ => "invalid_chunk_size"
  | badSettings _ => "invalid_settings"

end JobError
end RenderFarm

import Std.Time.Zoned.Database
import RenderFarm.Cli.Run

/-! The program: the command line on the files, the clock and the time zone of the machine. -/
namespace RenderFarm

/-- The number of an error, which some operations give with its sign turned over. -/
def errorNumber (code : UInt32) : Nat := min code.toNat (-code).toNat

def FileFault.ofError (e : IO.Error) : FileFault :=
  let known (code : UInt32) (details : String) : FileFault :=
    match errorNumber code with
    | 2 => .notFound
    | 20 => .notADirectory
    | 21 => .isADirectory
    | 36 => .nameTooLong
    | n => .other (details ++ " (os error " ++ toString n ++ ")")
  match e with
  | .noFileOrDirectory _ code details => known code details
  | .inappropriateType _ code details => known code details
  | .invalidArgument _ code details => known code details
  | .permissionDenied _ code details => known code details
  | e => .other (toString e)

def readFile (path : String) : IO (Except FileFault String) := do
  try
    match String.fromUTF8? (← IO.FS.readBinFile path) with
    | some text => return .ok text
    | none => return .error .notText
  catch e => return .error (.ofError e)

def writeFile (path text : String) : IO (Except FileFault Unit) := do
  try
    IO.FS.writeFile path text
    return .ok ()
  catch e => return .error (.ofError e)

instance : Files IO where
  read := readFile
  write := writeFile
  present path := do
    match ← readFile path with
    | .error .notFound => return false
    | .error .notADirectory => return false
    | .error .nameTooLong => return false
    | _ => return true

def currentInstant : IO Instant := do
  let span := (← Std.Time.Timestamp.now).toDurationSinceUnixEpoch
  let nanos := span.nano.val.toNat
  if h : nanos < 1000000000 then
    return ⟨span.second.val, nanos, by omega, by omega⟩
  else
    return .ofSeconds span.second.val

/-- The time zone that the machine is set to, or UTC if it is not set to any. -/
def localZone : IO Zone := do
  try
    let rules ← match ← IO.getEnv "TZ" with
      | some "" => Std.Time.Database.defaultGetLocalZoneRules
      | some name => Std.Time.Database.defaultGetZoneRules name
      | none => Std.Time.Database.defaultGetLocalZoneRules
    return fun t =>
      let moment := Std.Time.Timestamp.ofSecondsSinceUnixEpoch ⟨t.seconds⟩
      (rules.timezoneAt moment).offset.second.val
  catch _ => return Zone.utc

def surroundings : IO Cli.Surroundings := do
  let bytes ← IO.getRandomBytes 16
  return {
    zone := ← localZone
    home := (← IO.getEnv "HOME").getD "~"
    origin :=
      { id := .ofRandom bytes.toList
        now := ← currentInstant
        directory := toString (← IO.currentDir) } }

end RenderFarm

def main (args : List String) : IO UInt32 := do
  let outcome : RenderFarm.Cli.Outcome ← RenderFarm.Cli.run (← RenderFarm.surroundings) args
  IO.print outcome.stdout
  IO.eprint outcome.stderr
  return outcome.code.toUInt32

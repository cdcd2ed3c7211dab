import RenderFarm.Text

/-! Command-line arguments. Flags are long, or short ones that may be joined; a value follows its
flag as the next argument or attached to it. Two flags are known before the command as well as after
it. Arguments are read from left to right, and the first thing that ends the reading counts: a
request for help or for the version, or a fault. -/
namespace RenderFarm
namespace Cli

inductive Flag where
  | config
  | verbose
  | help
  | version
  | created
  | out
  | chunkSize
  deriving DecidableEq

namespace Flag

def long : Flag → String
  | config => "config"
  | verbose => "verbose"
  | help => "help"
  | version => "version"
  | created => "created"
  | out => "out"
  | chunkSize => "chunk-size"

def short? : Flag → Option Char
  | config => some 'c'
  | verbose => some 'v'
  | help => some 'h'
  | version => some 'V'
  | out => some 'o'
  | _ => none

def takesValue : Flag → Bool
  | config | created | out | chunkSize => true
  | _ => false

end Flag

def readInt64? (s : String) : Option Int64 :=
  let number : Option Int := match s.toList with
    | '-' :: r => (Text.readDecimal? r).map fun n => -(n : Int)
    | '+' :: r => (Text.readDecimal? r).map fun n => (n : Int)
    | r => (Text.readDecimal? r).map fun n => (n : Int)
  number >>= fun n =>
    if Int64.minValue.toInt ≤ n ∧ n ≤ Int64.maxValue.toInt then some (.ofInt n) else none

def Flag.accepts : Flag → String → Bool
  | config, v => v != ""
  | out, v => v != ""
  | chunkSize, v => (readInt64? v).isSome
  | _, _ => true

/-- Whether the next argument is taken for a flag's value: one that starts with a hyphen is not,
except for a hyphen alone and for a number where one is wanted. -/
def Flag.takes (f : Flag) (arg : String) : Bool :=
  !arg.startsWith "-" || arg == "-" || (f == chunkSize && (readInt64? arg).isSome)

inductive Subcommand where
  | compile
  | frames
  | validate
  | version
  deriving DecidableEq

namespace Subcommand

def all : List Subcommand := [compile, frames, validate, version]

def name : Subcommand → String
  | compile => "compile"
  | frames => "frames"
  | validate => "validate"
  | version => "version"

def ofName? (s : String) : Option Subcommand := all.find? (·.name == s)

def flags : Subcommand → List Flag
  | compile => [.config, .verbose, .help, .created, .out]
  | frames => [.config, .verbose, .help, .chunkSize]
  | _ => [.config, .verbose, .help]

def acceptsOperand : Subcommand → String → Bool
  | compile, s => s != ""
  | validate, s => s != ""
  | frames, _ => true
  | version, _ => false

end Subcommand

def globalFlags : List Flag := [.config, .verbose, .help, .version]

inductive Invocation where
  | compile (config : Option String) (job : String) (created out : Option String)
  | frames (expression : String) (chunkSize : Int64)
  | validate (config : Option String) (job : String)
  | version
  deriving DecidableEq

inductive Stop where
  | usage
  | help
  | version
  deriving DecidableEq

structure Given where
  flags : List (Flag × String) := []
  operands : List String := []
  /-- A flag whose value has not been looked at yet. -/
  pending : Option (Flag × String) := none

namespace Given

def value? (g : Given) (f : Flag) : Option String := g.flags.lookup f

/-- Looks at the value of the last flag. No flag is given twice. -/
def settle (g : Given) : Except Stop Given :=
  match g.pending with
  | none => .ok g
  | some (f, v) =>
    if (g.value? f).isSome || !f.accepts v then .error .usage
    else .ok { g with flags := g.flags ++ [(f, v)], pending := none }

def add (g : Given) (f : Flag) (v : String) : Except Stop Given := do
  let g ← g.settle
  { g with pending := some (f, v) }.settle

def mark (g : Given) (f : Flag) : Except Stop Given := do
  let g ← g.settle
  if f = .help then .error .help
  else if f = .version then .error .version
  else g.add f ""

/-- The long flag with the given text after its hyphens, and whether its value is to follow. -/
def long (known : List Flag) (g : Given) (s : List Char) : Except Stop (Given × Option Flag) :=
  let name := s.takeWhile (· != '=')
  match known.find? fun f => f.long.toList == name, s.dropWhile (· != '=') with
  | none, _ => .error .usage
  | some f, [] =>
    if f.takesValue then g.settle.map (·, some f) else (g.mark f).map (·, none)
  | some f, _ :: v =>
    if f.takesValue then (g.add f (String.ofList v)).map (·, none) else .error .usage

/-- The short flags in a text after its hyphen, and the one whose value is to follow. -/
def short (known : List Flag) (g : Given) : List Char → Except Stop (Given × Option Flag)
  | [] => .ok (g, none)
  | c :: r =>
    match known.find? fun f => f.short? == some c with
    | none => .error .usage
    | some f =>
      if f.takesValue then
        match r with
        | [] => g.settle.map (·, some f)
        | '=' :: v => (g.add f (String.ofList v)).map (·, none)
        | v => (g.add f (String.ofList v)).map (·, none)
      else do short known (← g.mark f) r

def addOperands (accepts : String → Bool) (g : Given) : List String → Except Stop Given
  | [] => .ok g
  | [s] =>
    if g.operands.isEmpty && accepts s then .ok { g with operands := [s] } else .error .usage
  | _ => .error .usage

/-- Reads arguments up to the end or to one at which `stops` holds, and gives what is left.
`awaited` is the flag whose value is to follow. After two hyphens there are operands only. -/
def read (known : List Flag) (accepts stops : String → Bool) :
    Option Flag → Given → List String → Except Stop (Given × List String)
  | none, g, [] => .ok (g, [])
  | some _, _, [] => .error .usage
  | some f, g, a :: r =>
    if f.takes a then read known accepts stops none { g with pending := some (f, a) } r
    else .error .usage
  | none, g, a :: r =>
    if stops a then .ok (g, a :: r)
    else if a = "--" then (g.addOperands accepts r).map (·, [])
    else
      match a.toList with
      | '-' :: '-' :: s => do
        let (g, awaited) ← g.long known s
        read known accepts stops awaited g r
      | '-' :: c :: s => do
        let (g, awaited) ← g.short known (c :: s)
        read known accepts stops awaited g r
      | _ => do read known accepts stops none (← g.addOperands accepts [a]) r

end Given

def Subcommand.invocation (c : Subcommand) (config : Option String) (g : Given) :
    Except Stop Invocation :=
  match c, g.operands with
  | .version, _ => .ok .version
  | .compile, [job] => .ok (.compile config job (g.value? .created) (g.value? .out))
  | .validate, [job] => .ok (.validate config job)
  | .frames, [expression] =>
    .ok (.frames expression (((g.value? .chunkSize).bind readInt64?).getD 1))
  | _, _ => .error .usage

def helpOn : List String → Stop
  | [] => .help
  | [name] => if name = "help" ∨ (Subcommand.ofName? name).isSome then .help else .usage
  | _ => .usage

/-- What the arguments of a command line ask for. A flag after the command counts before the same
flag in front of it. -/
def parse (args : List String) : Except Stop Invocation := do
  let isCommand (s : String) : Bool := s == "help" || (Subcommand.ofName? s).isSome
  let (before, rest) ← Given.read globalFlags (fun _ => false) isCommand none {} args
  match rest with
  | [] => .error .usage
  | name :: rest =>
    match Subcommand.ofName? name with
    | none => .error (helpOn rest)
    | some c => do
      let (after, _) ← Given.read c.flags c.acceptsOperand (fun _ => false) none {} rest
      let after ← after.settle
      let before ← before.settle
      c.invocation (after.value? .config <|> before.value? .config) after

end Cli
end RenderFarm

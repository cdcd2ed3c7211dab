import RenderFarm.Json.Number

/-! Data written as JSON, compactly or with one entry a line and two spaces per level. A number
that is not finite is written as `null`. -/
namespace RenderFarm
namespace Json

def hexPair (n : Nat) : List Char := [Nat.digitChar (n / 16), Nat.digitChar (n % 16)]

/-- How one character is written inside a JSON string. -/
def escape (c : Char) : List Char :=
  if c = '"' then ['\\', '"']
  else if c = '\\' then ['\\', '\\']
  else if c = '\x08' then ['\\', 'b']
  else if c = '\x0c' then ['\\', 'f']
  else if c = '\n' then ['\\', 'n']
  else if c = '\r' then ['\\', 'r']
  else if c = '\t' then ['\\', 't']
  else if c.toNat < 0x20 then ['\\', 'u', '0', '0'] ++ hexPair c.toNat
  else [c]

def string (s : String) : List Char := '"' :: s.toList.flatMap escape ++ ['"']

def scalar : Datum → List Char
  | .null => ['n', 'u', 'l', 'l']
  | .bool true => ['t', 'r', 'u', 'e']
  | .bool false => ['f', 'a', 'l', 's', 'e']
  | .int n => Text.decimalInt n
  | .float x => (numberText? x).getD ['n', 'u', 'l', 'l']
  | .text s => string s
  | _ => []

mutual

def compact : Datum → List Char
  | .list items => '[' :: compactItems items ++ [']']
  | .table entries => '\x7b' :: compactEntries entries ++ ['\x7d']
  | d => scalar d

def compactItems : List Datum → List Char
  | [] => []
  | [d] => compact d
  | d :: ds => compact d ++ ',' :: compactItems ds

def compactEntries : List (String × Datum) → List Char
  | [] => []
  | [(k, d)] => string k ++ ':' :: compact d
  | (k, d) :: es => string k ++ ':' :: compact d ++ ',' :: compactEntries es

end

def lineBreak (level : Nat) : List Char := '\n' :: List.replicate (2 * level) ' '

mutual

def pretty (level : Nat) : Datum → List Char
  | .list [] => ['[', ']']
  | .list items => '[' :: prettyItems (level + 1) items ++ lineBreak level ++ [']']
  | .table [] => ['\x7b', '\x7d']
  | .table entries => '\x7b' :: prettyEntries (level + 1) entries ++ lineBreak level ++ ['\x7d']
  | d => scalar d

def prettyItems (level : Nat) : List Datum → List Char
  | [] => []
  | [d] => lineBreak level ++ pretty level d
  | d :: ds => lineBreak level ++ pretty level d ++ ',' :: prettyItems level ds

def prettyEntries (level : Nat) : List (String × Datum) → List Char
  | [] => []
  | [(k, d)] => lineBreak level ++ string k ++ [':', ' '] ++ pretty level d
  | (k, d) :: es =>
    lineBreak level ++ string k ++ [':', ' '] ++ pretty level d ++ ',' :: prettyEntries level es

end

/-- A datum on one line, or laid out over several. -/
def render (isPretty : Bool) (d : Datum) : String :=
  String.ofList (if isPretty then pretty 0 d else compact d)

end Json
end RenderFarm

import RenderFarm.Text

/-! Paths as artists submit them. Both slashes separate segments, empty segments count for nothing,
and joined paths take a forward slash. Nothing here asks a file system. -/
namespace RenderFarm
namespace Path

def isSeparator (c : Char) : Bool := c == '/' || c == '\\'

/-- The non-empty segments of a path. -/
def segments (p : String) : List String := (Text.pieces isSeparator p.toList).map String.ofList

/-- The last segment, or the empty text if there is none. -/
def basename (p : String) : String := (segments p).getLast?.getD ""

/-- What precedes the last separator; a separator that starts the path is kept. -/
def dirname (p : String) : String :=
  match p.toList.reverse.dropWhile (!isSeparator ·) with
  | [] => ""
  | [c] => String.ofList [c]
  | _ :: r => String.ofList r.reverse

/-- The names of the directories that the file at a path lies in. -/
def directories (p : String) : List String := (segments p).dropLast

/-- The last `n` of these names, or all of them if they are fewer. -/
def lastDirectories (n : Nat) (p : String) : List String :=
  let dirs := directories p
  dirs.drop (dirs.length - n)

/-- The name of the file at a path and of the directory that holds it. -/
def parentAndFile? (p : String) : Option (String × String) :=
  match (segments p).reverse with
  | file :: parent :: _ => some (parent, file)
  | _ => none

def endsWithSeparator (p : String) : Bool := p.toList.getLast?.any isSeparator

/-- A path with one more part; an empty part adds nothing, and a separator is never doubled. -/
def append (p part : String) : String :=
  if part = "" then p
  else if p = "" ∨ endsWithSeparator p then p ++ part
  else p ++ "/" ++ part

def join (parts : List String) : String := parts.foldl append ""

/-- Whether a path starts at a root: a slash, two backslashes, or a drive letter with its colon and
a separator. -/
def isAbsolute (p : String) : Bool :=
  match p.toList with
  | '/' :: _ => true
  | '\\' :: '\\' :: _ => true
  | c :: ':' :: d :: _ => c.isAlpha && isSeparator d
  | _ => false

end Path
end RenderFarm

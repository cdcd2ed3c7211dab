import RenderFarm.Text

/-! Access to files by their paths. What the command line does is written against `Files`, and so
runs on real files as well as on a `Directory`, which is a value: text files, with a directory among
them that is worked in. Paths that start with a slash are followed from the root, others from the
working directory; where they lead is told by the names on the way from the root, so that two paths
to one file lead to one place. -/
namespace RenderFarm

inductive FileFault where
  | notFound
  | notADirectory
  | isADirectory
  | nameTooLong
  /-- A path that holds U+0000. -/
  | nulInPath
  | notText
  | other (message : String)
  deriving DecidableEq

def FileFault.message : FileFault → String
  | notFound => "No such file or directory (os error 2)"
  | notADirectory => "Not a directory (os error 20)"
  | isADirectory => "Is a directory (os error 21)"
  | nameTooLong => "File name too long (os error 36)"
  | nulInPath => "file name contained an unexpected NUL byte"
  | notText => "stream did not contain valid UTF-8"
  | other message => message

class Files (m : Type → Type) where
  read : String → m (Except FileFault String)
  /-- Whether there is a file or directory at a path. -/
  present : String → m Bool
  /-- Makes or replaces a file. -/
  write : String → String → m (Except FileFault Unit)

/-- Files by the names on the way to them from the root. There are no directories but those with
files in them and those on the way to `place`, the working directory. -/
structure Directory where
  place : List String
  files : List (List String × String)

/-- What a path leads to, by the names on the way from the root. -/
inductive Place where
  | directory (names : List String)
  | file (names : List String)
  deriving DecidableEq

namespace Directory

def isSlash (c : Char) : Bool := c == '/'

def names (path : String) : List String := (Text.pieces isSlash path.toList).map String.ofList

def ofFiles (files : List (String × String)) (place : List String := ["farm"]) : Directory where
  place := place
  files := files.map fun f => (place ++ (names f.1).filter (· != "."), f.2)

def text? (d : Directory) (names : List String) : Option String := d.files.lookup names

def isDirectory (d : Directory) (names : List String) : Bool :=
  names.isPrefixOf d.place ||
    d.files.any fun f => names.isPrefixOf f.1 && decide (names.length < f.1.length)

def maxNameSize : Nat := 255
def maxPathSize : Nat := 4095

/-- Where one more name leads. The root lies in itself. -/
def step (d : Directory) (place : Place) (name : String) : Except FileFault Place :=
  match place with
  | .file _ => .error .notADirectory
  | .directory names =>
    if name = "." then .ok place
    else if name = ".." then .ok (.directory names.dropLast)
    else if maxNameSize < name.utf8ByteSize then .error .nameTooLong
    else
      let inner := names ++ [name]
      if d.isDirectory inner then .ok (.directory inner)
      else if (d.text? inner).isSome then .ok (.file inner)
      else .error .notFound

def start (d : Directory) (path : String) : Place :=
  .directory (if path.toList.head?.any isSlash then [] else d.place)

/-- Where the names of a path lead, if it is a proper path. -/
def walk (d : Directory) (path : String) (names : List String) : Except FileFault Place :=
  if path = "" then .error .notFound
  else if path.toList.contains '\x00' then .error .nulInPath
  else if maxPathSize < path.utf8ByteSize then .error .nameTooLong
  else names.foldlM d.step (d.start path)

/-- Where a path leads. One that ends in a slash leads to a directory. -/
def locate (d : Directory) (path : String) : Except FileFault Place :=
  d.walk path (names path ++ if path.toList.getLast?.any isSlash then ["."] else [])

def read (d : Directory) (path : String) : Except FileFault String :=
  match d.locate path with
  | .error fault => .error fault
  | .ok (.file names) => .ok ((d.text? names).getD "")
  | .ok (.directory _) => .error .isADirectory

def put (names : List String) (text : String) (d : Directory) : Directory where
  place := d.place
  files :=
    if (d.text? names).isSome then d.files.map fun f => if f.1 == names then (names, text) else f
    else d.files ++ [(names, text)]

/-- The files after one was written. What it lies in has to be there, and to be a directory. -/
def write (d : Directory) (path text : String) : Except FileFault Directory :=
  match (names path).reverse with
  | [] => d.walk path [] >>= fun _ => .error .isADirectory
  | name :: before =>
    match d.walk path before.reverse with
    | .error fault => .error fault
    | .ok (.file _) => .error .notADirectory
    | .ok (.directory names) =>
      if path.toList.getLast?.any isSlash then .error .isADirectory
      else
        match d.step (.directory names) name with
        | .ok (.file names) => .ok (d.put names text)
        | .ok (.directory _) => .error .isADirectory
        | .error .notFound => .ok (d.put (names ++ [name]) text)
        | .error fault => .error fault

end Directory

instance : Files (StateM Directory) where
  read path := do return (← get).read path
  present path := do return ((← get).locate path).isOk
  write path text := do
    match (← get).write path text with
    | .error fault => return .error fault
    | .ok d =>
      set d
      return .ok ()
end RenderFarm

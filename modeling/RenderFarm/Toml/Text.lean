import RenderFarm.Text

/-! Blanks, comments, strings and keys of TOML texts. A line ends with a line feed, with or without
a carriage return before it, or with the text. Strings stand between double quotes with escapes, or
between single quotes as they are, on one line or, between three quotes, on several; a line break
counts as a line feed, and one right after the opening quotes does not count. Keys are names between
dots, bare or quoted. A reader gives what stands at the start of a text, and what follows it. -/
namespace RenderFarm
namespace Toml

def isSpace (c : Char) : Bool := c == ' ' || c == '\t'

def skipSpace (s : List Char) : List Char := s.dropWhile isSpace

/-- Characters that may stand in comments and strings: all but control characters, and the tab. -/
def isVisible (c : Char) : Bool := c == '\t' || (decide (0x20 ≤ c.toNat) && c != '\x7f')

def newline? : List Char → Option (List Char)
  | '\n' :: r => some r
  | '\r' :: '\n' :: r => some r
  | _ => none

def skipComment : List Char → List Char
  | '#' :: r => r.dropWhile isVisible
  | s => s

/-- What follows the rest of a line without content. -/
def endLine? (s : List Char) : Option (List Char) :=
  match skipComment (skipSpace s) with
  | [] => some []
  | r => newline? r

def skipBreaks : List Char → List Char
  | '\r' :: '\n' :: r => skipBreaks r
  | c :: r => if isSpace c || c == '\n' then skipBreaks r else c :: r
  | [] => []

/-- What follows blanks, line breaks and comments; `inComment` tells whether a comment has begun. -/
def skipTrivia (inComment : Bool) : List Char → List Char
  | '\r' :: '\n' :: r => skipTrivia false r
  | c :: r =>
    if inComment && isVisible c then skipTrivia true r
    else if isSpace c || c == '\n' then skipTrivia false r
    else if c == '#' then skipTrivia true r
    else c :: r
  | [] => []

def codePoint? (n : Nat) (s : List Char) : Option (Char × List Char) := do
  let ds := s.take n
  let v ← Text.hexNumber? ds
  if ds.length = n ∧ v.isValidChar then some (Char.ofNat v, s.drop n) else none

def escaped? : List Char → Option (Char × List Char)
  | 'b' :: r => some ('\x08', r)
  | 'f' :: r => some ('\x0c', r)
  | 'n' :: r => some ('\n', r)
  | 'r' :: r => some ('\r', r)
  | 't' :: r => some ('\t', r)
  | '"' :: r => some ('"', r)
  | '\\' :: r => some ('\\', r)
  | 'u' :: r => codePoint? 4 r
  | 'U' :: r => codePoint? 8 r
  | _ => none

def basicBody? (s : List Char) : Option (List Char × List Char) :=
  match s with
  | [] => none
  | c :: r =>
    if c = '"' then some ([], r)
    else if c = '\\' then
      match escaped? r with
      | none => none
      | some (c, t) =>
        if t.length < r.length + 1 then
          (basicBody? t).map fun (cs, t) => (c :: cs, t)
        else none
    else if isVisible c then (basicBody? r).map fun (cs, t) => (c :: cs, t)
    else none
termination_by s.length

def literalBody? (s : List Char) : Option (List Char × List Char) :=
  let inside (c : Char) : Bool := isVisible c && c != '\''
  match s.dropWhile inside with
  | '\'' :: r => some (s.takeWhile inside, r)
  | _ => none

/-- The end of a string between three quotes: up to two quotes before the closing ones belong to the
string. -/
def closing? (quote : Char) (s : List Char) : Option (List Char × List Char) :=
  let n := (s.takeWhile (· == quote)).length
  if n < 3 then none
  else
    let inner := min (n - 3) 2
    some (List.replicate inner quote, s.drop (inner + 3))

/-- What follows a backslash at the end of a line: the first character on a later line that is no
blank. -/
def continuation? (s : List Char) : Option (List Char) := (newline? (skipSpace s)).map skipBreaks

def longBasicBody? (s : List Char) : Option (List Char × List Char) :=
  match closing? '"' s, s with
  | some e, _ => some e
  | none, [] => none
  | none, c :: r =>
    if c = '\\' then
      match continuation? r with
      | some t =>
        if t.length < r.length + 1 then
          longBasicBody? t
        else none
      | none =>
        match escaped? r with
        | none => none
        | some (c, t) =>
          if t.length < r.length + 1 then
            (longBasicBody? t).map fun (cs, t) => (c :: cs, t)
          else none
    else if isVisible c || c == '\n' then (longBasicBody? r).map fun (cs, t) => (c :: cs, t)
    else if c == '\r' && r.head? == some '\n' then longBasicBody? r
    else none
termination_by s.length

def longLiteralBody? (s : List Char) : Option (List Char × List Char) :=
  match closing? '\'' s, s with
  | some e, _ => some e
  | none, [] => none
  | none, c :: r =>
    if isVisible c || c == '\n' then (longLiteralBody? r).map fun (cs, t) => (c :: cs, t)
    else if c == '\r' && r.head? == some '\n' then longLiteralBody? r
    else none
termination_by s.length

def lineText? (s : List Char) : Option (String × List Char) :=
  let body := match s with
    | '"' :: r => basicBody? r
    | '\'' :: r => literalBody? r
    | _ => none
  body.map fun (cs, r) => (String.ofList cs, r)

def text? (s : List Char) : Option (String × List Char) :=
  let opened (r : List Char) : List Char := (newline? r).getD r
  match s with
  | '"' :: '"' :: '"' :: r => (longBasicBody? (opened r)).map fun (cs, r) => (String.ofList cs, r)
  | '\'' :: '\'' :: '\'' :: r =>
    (longLiteralBody? (opened r)).map fun (cs, r) => (String.ofList cs, r)
  | s => lineText? s

/-- Keys have fewer names than this, and values are nested less deeply. -/
def depthLimit : Nat := 80

def isBare (c : Char) : Bool := c.isAlphanum || c == '-' || c == '_'

def name? (s : List Char) : Option (String × List Char) :=
  match lineText? s with
  | some n => some n
  | none =>
    match s.takeWhile isBare with
    | [] => none
    | n => some (String.ofList n, s.dropWhile isBare)

def names? (s : List Char) : Option (List String × List Char) :=
  match name? (skipSpace s) with
  | none => none
  | some (n, r) =>
    match skipSpace r with
    | '.' :: t =>
      if t.length < s.length then (names? t).map fun (ns, r) => (n :: ns, r) else none
    | t => some ([n], t)
termination_by s.length

/-- A key: the names that lead to a table, the last name, and what follows. -/
def key? (s : List Char) : Option (List String × String × List Char) :=
  match names? s with
  | none => none
  | some (ns, r) =>
    if ns.length < depthLimit then ns.getLast?.map fun k => (ns.dropLast, k, r) else none

end Toml
end RenderFarm

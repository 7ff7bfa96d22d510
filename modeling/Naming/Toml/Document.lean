import Naming.Toml.Quoted
import Naming.Toml.Scalar
import Naming.Toml.Table

namespace Naming.Toml

def isBlank (c : Char) : Bool := c = ' ' || c = '\t'

def skipBlanks (cs : List Char) : List Char := cs.dropWhile isBlank

/-- The end of a line, but not the end of the text. -/
def newline : List Char → Option (List Char)
  | '\n' :: rest => some rest
  | '\r' :: '\n' :: rest => some rest
  | _ => none

/-- What follows a comment, when there is one. -/
def skipComment : List Char → List Char
  | '#' :: rest => rest.dropWhile isPlain
  | cs => cs

/-- Blanks and a comment may stand between a statement and the end of its line. -/
def lineEnd (cs : List Char) : Option (List Char) :=
  match skipComment (skipBlanks cs) with
  | [] => some []
  | rest => newline rest

/-- Skips blanks, line ends and comments, as between the items of a list. Each of the steps, of
which there are as many as characters, skips one line. -/
def skipLines : Nat → List Char → List Char
  | 0, cs => cs
  | steps + 1, cs =>
    match newline (skipComment (skipBlanks cs)) with
    | some rest => skipLines steps rest
    | none => skipBlanks cs

def isKeyChar (c : Char) : Bool :=
  ('a' ≤ c && c ≤ 'z') || ('A' ≤ c && c ≤ 'Z') || c.isDigit || c = '_' || c = '-'

def simpleKey : Parser String
  | '"' :: rest => (basicBody rest).map fun (cs, rest) => (String.ofList cs, rest)
  | '\'' :: rest => (literalBody rest).map fun (cs, rest) => (String.ofList cs, rest)
  | cs =>
    let word := cs.takeWhile isKeyChar
    if word.isEmpty then none else some (String.ofList word, cs.dropWhile isKeyChar)

/-- How deep values may be nested and how long dotted keys may be. -/
def deepest : Nat := 79

/-- Keys with dots between them, and blanks around each. -/
def dottedKey : Nat → Parser (List String)
  | 0, _ => none
  | most + 1, cs => do
    let (key, rest) ← simpleKey (skipBlanks cs)
    match skipBlanks rest with
    | '.' :: rest =>
      let (keys, rest) ← dottedKey most rest
      return (key :: keys, rest)
    | rest => return ([key], rest)

def key : Parser (List String) := dottedKey deepest

def isScalarChar (c : Char) : Bool :=
  isKeyChar c || c = '+' || c = '.' || c = ':'

/-- A word without quotes. A blank may stand between a date and a time of day. -/
def scalar : Parser Value := fun cs =>
  let word := cs.takeWhile isScalarChar
  let rest := cs.dropWhile isScalarChar
  let (word, rest) := match Moment.date? word, rest with
    | some (_, []), ' ' :: c :: more =>
      if c.isDigit then
        (word ++ ' ' :: (c :: more).takeWhile isScalarChar, (c :: more).dropWhile isScalarChar)
      else (word, rest)
    | _, _ => (word, rest)
  (scalar? word).map (·, rest)

/-- The items of a list up to its closing bracket. A comma may follow the last one. -/
def listItems (value : Parser Value) : Nat → Parser (List Value)
  | 0, _ => none
  | steps + 1, cs =>
    match skipLines cs.length cs with
    | ']' :: rest => some ([], rest)
    | cs => do
      let (v, rest) ← value cs
      match skipLines rest.length rest with
      | ',' :: rest =>
        let (vs, rest) ← listItems value steps rest
        return (v :: vs, rest)
      | ']' :: rest => return ([v], rest)
      | _ => none

/-- A key and its value, with blanks around both. -/
def pair (value : Parser Value) : Parser (List String × Value) := fun cs => do
  match ← key cs with
  | (path, '=' :: rest) =>
    let (v, rest) ← value (skipBlanks rest)
    return ((path, v), skipBlanks rest)
  | _ => none

/-- The pairs of a table on one line, up to its closing brace. -/
def tablePairs (value : Parser Value) : Nat → Table → Parser Table
  | 0, _, _ => none
  | steps + 1, t, cs => do
    let ((path, v), rest) ← pair value cs
    let t ← t.addValue v path true
    match rest with
    | ',' :: rest => tablePairs value steps t rest
    | '\x7d' :: rest => return (t, rest)
    | _ => none

def inlineTable (value : Parser Value) : Parser Value := fun cs => do
  match skipBlanks cs with
  | '\x7d' :: rest => return (.table [], rest)
  | cs =>
    let (t, rest) ← tablePairs value cs.length [] cs
    return (.table (Table.fieldValues t), rest)

/-- A value with no more than so many lists and tables around another. -/
def valueWithin : Nat → Parser Value
  | 0, cs =>
    match cs with
    | '[' :: _ | '\x7b' :: _ => none
    | '"' :: _ | '\'' :: _ => (quoted cs).map fun (s, rest) => (.text s, rest)
    | _ => scalar cs
  | depth + 1, cs =>
    match cs with
    | '[' :: rest =>
      (listItems (valueWithin depth) rest.length rest).map fun (vs, rest) => (.list vs, rest)
    | '\x7b' :: rest => inlineTable (valueWithin depth) rest
    | '"' :: _ | '\'' :: _ => (quoted cs).map fun (s, rest) => (.text s, rest)
    | _ => scalar cs

def value : Parser Value := valueWithin deepest

/-- A line that says something. -/
inductive Statement where
  | value (path : List String) (v : Value)
  | table (path : List String)
  | row (path : List String)

/-- A header, after its first bracket. -/
def headerLine : Parser Statement
  | '[' :: rest => do
    match ← key rest with
    | (path, ']' :: ']' :: rest) => return (.row path, ← lineEnd rest)
    | _ => none
  | cs => do
    match ← key cs with
    | (path, ']' :: rest) => return (.table path, ← lineEnd rest)
    | _ => none

def statement : Parser Statement
  | '[' :: rest => headerLine rest
  | cs => do
    let ((path, v), rest) ← pair value cs
    return (.value path v, ← lineEnd rest)

/-- All statements of a text. Each of the steps, one more than characters, reads one line. -/
def statements : Nat → List Char → Option (List Statement)
  | 0, _ => none
  | steps + 1, cs =>
    match skipBlanks cs with
    | [] => some []
    | cs =>
      match newline cs, cs with
      | some rest, _ => statements steps rest
      | none, '#' :: _ => do statements steps (← lineEnd cs)
      | none, _ => do
        let (s, rest) ← statement cs
        return s :: (← statements steps rest)

/-- Carries out statements one after the other. Values belong to the table of the latest header. -/
def build : List String → Table → List Statement → Option Table
  | _, t, [] => some t
  | latest, t, .value path v :: rest => do
    build latest (← t.within latest (Table.addValue v path true)) rest
  | _, t, .table path :: rest => do build path (← t.header Table.open? path) rest
  | _, t, .row path :: rest => do build path (← t.header Table.addRow? path) rest

/-- A mark of the byte order may stand before the text. -/
def skipMark : List Char → List Char
  | c :: rest => if c.toNat = 0xFEFF then rest else c :: rest
  | [] => []

/-- The settings that a text gives, if it is well formed. -/
def read (s : String) : Option (List (String × Settings.Value)) := do
  let cs := skipMark s.toList
  let t ← build [] [] (← statements (cs.length + 1) cs)
  match ← (Value.table (Table.fieldValues t)).toSetting? with
  | .table fields => return fields
  | _ => none

end Naming.Toml

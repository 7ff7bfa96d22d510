import Naming.Name

namespace Naming

/-- The three characters with a meaning of their own in a written name. -/
def isReserved (c : Char) : Bool := c = '/' || c = '.' || c = '\\'

/-- A reserved character is written with an escape before it and all else as it is. -/
def escape : List Char → List Char
  | [] => []
  | c :: rest => if isReserved c then '\\' :: c :: escape rest else c :: escape rest

namespace Component

/-- The kind follows a dot, and an empty kind is left out together with its dot. -/
def written (c : Component) : List Char :=
  if c.kind.isEmpty then escape c.id.toList
  else escape c.id.toList ++ '.' :: escape c.kind.toList

def text (c : Component) : String := String.ofList c.written

end Component

namespace Name

def writtenRest : List Label → List Char
  | [] => []
  | label :: rest => '/' :: (label.val.written ++ writtenRest rest)

/-- The components of a name are written with a slash between them. -/
def written (n : Name) : List Char := n.first.val.written ++ writtenRest n.rest

def text (n : Name) : String := String.ofList n.written

/-- What a reader of a written name meets, from left to right. -/
inductive Token where
  | letter (c : Char)
  | slash
  | dot
  | dangling
deriving DecidableEq

/-- An escape makes a letter of whatever follows it, and dangles at the end of the text. -/
def tokens : List Char → List Token
  | [] => []
  | '\\' :: c :: rest => .letter c :: tokens rest
  | ['\\'] => [.dangling]
  | '/' :: rest => .slash :: tokens rest
  | '.' :: rest => .dot :: tokens rest
  | c :: rest => .letter c :: tokens rest

/-- The component read so far: its identifier, and its kind once a dot was met. -/
structure Draft where
  id : List Char := []
  kind : Option (List Char) := none

namespace Draft

def push (d : Draft) (c : Char) : Draft :=
  match d.kind with
  | none => { d with id := d.id ++ [c] }
  | some kind => { d with kind := some (kind ++ [c]) }

def component (d : Draft) : Component :=
  ⟨String.ofList d.id, String.ofList (d.kind.getD [])⟩

end Draft

/-- Reads labels from tokens; the first fault in reading order is the one reported. -/
def readLabels (text : String) (d : Draft) : List Token → Except Fault (List Label)
  | [] =>
    match Label.ofComponent? d.component with
    | none => .error (.emptyComponent text)
    | some label => .ok [label]
  | .slash :: rest =>
    match Label.ofComponent? d.component with
    | none => .error (.emptyComponent text)
    | some label => (readLabels text {} rest).map (label :: ·)
  | .dot :: rest =>
    match d.kind with
    | none => readLabels text { d with kind := some [] } rest
    | some _ => .error (.secondKind text)
  | .letter c :: rest => readLabels text (d.push c) rest
  | .dangling :: _ => .error (.danglingEscape text)

/-- The name written in a text. -/
def ofText (text : String) : Except Fault Name :=
  if text.isEmpty then .error .emptyText
  else
    match readLabels text {} (tokens text.toList) with
    | .error fault => .error fault
    | .ok [] => .error .noComponents
    | .ok (first :: rest) => .ok ⟨first, rest⟩

end Name

end Naming

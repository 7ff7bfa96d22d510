import Naming.Disk

namespace Naming

namespace Tree

/-- The entries, one on each line, as a letter and the key and the value in digits. -/
def lines (letter : String) (t : Tree) : List String :=
  t.entries.map fun (key, value) => s!"{letter} {Bytes.toHex key} {Bytes.toHex value}\n"

end Tree

namespace Disk

def text (d : Disk) : String := String.join (d.contexts.lines "c" ++ d.marks.lines "m")

def addLine (d : Disk) (line : String) : Option Disk := do
  match line.splitOn " " with
  | [letter, key, value] =>
    let key ← Bytes.ofHex? key.toList
    let value ← Bytes.ofHex? value.toList
    match letter with
    | "c" => return { d with contexts := d.contexts.insert key value }
    | "m" => return { d with marks := d.marks.insert key value }
    | _ => none
  | _ => none

/-- The disk that a text describes, if all of its lines are entries. -/
def ofText? (s : String) : Option Disk :=
  ((s.splitOn "\n").filter (! ·.isEmpty)).foldlM addLine {}

end Disk

end Naming

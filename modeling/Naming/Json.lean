import Naming.Bytes

namespace Naming

/-- A JSON value. Numbers that are not written as integers are kept as they are written. -/
inductive Json where
  | null
  | bool (b : Bool)
  | int (i : Int)
  | real (written : String)
  | str (s : String)
  | arr (items : List Json)
  | obj (fields : List (String × Json))

namespace Json

instance : Inhabited Json := ⟨null⟩

def escapeChar (c : Char) : List Char :=
  if c = '"' then ['\\', '"']
  else if c = '\\' then ['\\', '\\']
  else if c = '\n' then ['\\', 'n']
  else if c = '\r' then ['\\', 'r']
  else if c = '\t' then ['\\', 't']
  else if c.toNat = 8 then ['\\', 'b']
  else if c.toNat = 12 then ['\\', 'f']
  else if c.toNat < 32 then
    ['\\', 'u', '0', '0', Bytes.hexDigit (c.toNat / 16), Bytes.hexDigit (c.toNat % 16)]
  else [c]

def quote (s : String) : String :=
  "\"" ++ String.ofList (s.toList.flatMap escapeChar) ++ "\""

mutual

/-- The value on one line without blanks. -/
def compact : Json → String
  | null => "null"
  | bool b => if b then "true" else "false"
  | int i => toString i
  | real written => written
  | str s => quote s
  | arr items => "[" ++ String.intercalate "," (compactItems items) ++ "]"
  | obj fields => "\x7b" ++ String.intercalate "," (compactFields fields) ++ "\x7d"

def compactItems : List Json → List String
  | [] => []
  | item :: rest => item.compact :: compactItems rest

def compactFields : List (String × Json) → List String
  | [] => []
  | (name, value) :: rest => (quote name ++ ":" ++ value.compact) :: compactFields rest

end

def indent (depth : Nat) : String := "\n" ++ String.ofList (List.replicate (2 * depth) ' ')

/-- Lines between brackets, each on its own and one level deeper than the brackets. -/
def block (depth : Nat) (opening closing : String) (lines : List String) : String :=
  if lines.isEmpty then opening ++ closing
  else
    opening ++ indent (depth + 1) ++ String.intercalate ("," ++ indent (depth + 1)) lines ++
      indent depth ++ closing

mutual

/-- The value with each item and each field on a line of its own. -/
def layOut (depth : Nat) : Json → String
  | arr items => block depth "[" "]" (layOutItems (depth + 1) items)
  | obj fields => block depth "\x7b" "\x7d" (layOutFields (depth + 1) fields)
  | null => "null"
  | bool b => if b then "true" else "false"
  | int i => toString i
  | real written => written
  | str s => quote s

def layOutItems (depth : Nat) : List Json → List String
  | [] => []
  | item :: rest => item.layOut depth :: layOutItems depth rest

def layOutFields (depth : Nat) : List (String × Json) → List String
  | [] => []
  | (name, value) :: rest =>
    (quote name ++ ": " ++ value.layOut depth) :: layOutFields depth rest

end

def pretty (j : Json) : String := j.layOut 0

end Json

end Naming

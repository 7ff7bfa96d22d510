import Naming.Toml.Value

namespace Naming.Toml

/-- How a table came to be: as part of the name of another one, as part of a dotted key, or under a
header of its own. -/
inductive Origin where
  | implied
  | dotted
  | headed
deriving DecidableEq

/-- What a key stands for while a document is read. -/
inductive Node where
  | leaf (v : Value)
  | branch (origin : Origin) (fields : List (String × Node))
  | rows (tables : List (List (String × Node)))

instance : Inhabited Node := ⟨.branch .implied []⟩

abbrev Table := List (String × Node)

namespace Table

/-- Changes what stands under a key, if the change is allowed. A new key comes last. -/
def update (key : String) (change : Option Node → Option Node) : Table → Option Table
  | [] => (change none).map fun n => [(key, n)]
  | (k, n) :: rest =>
    if k = key then (change (some n)).map fun n => (k, n) :: rest
    else (update key change rest).map ((k, n) :: ·)

/-- Changes the last of several tables. -/
def updateLast (change : Table → Option Table) (tables : List Table) : Option (List Table) := do
  let last ← tables.getLast?
  return tables.dropLast ++ [← change last]

/-- Changes the table of this name. Of a list of tables the last one is meant, and tables that are
not there yet are implied. -/
def within : List String → (Table → Option Table) → Table → Option Table
  | [], change, t => change t
  | key :: path, change, t => t.update key fun
    | none => (within path change []).map (.branch .implied)
    | some (.leaf _) => none
    | some (.branch origin fields) => (within path change fields).map (.branch origin)
    | some (.rows tables) => (updateLast (within path change) tables).map .rows

/-- Adds a value under a dotted key. Values have one place where they are written: a table with a
header takes no values through dotted keys, and one made by dotted keys takes them only so. -/
def addValue (v : Value) : List String → Bool → Table → Option Table
  | [], _, _ => none
  | [key], isOpen, t =>
    if isOpen then t.update key fun
      | none => some (.leaf v)
      | some _ => none
    else none
  | key :: next :: path, _, t => t.update key fun
    | none => (addValue v (next :: path) true []).map (.branch .dotted)
    | some (.leaf _) | some (.branch .headed _) => none
    | some (.branch origin fields) =>
      (addValue v (next :: path) (origin = .dotted) fields).map (.branch origin)
    | some (.rows tables) => (updateLast (addValue v (next :: path) false) tables).map .rows

/-- A header opens a table that is new or was only implied. -/
def open? : Option Node → Option Node
  | none => some (.branch .headed [])
  | some (.branch .implied fields) => some (.branch .headed fields)
  | some _ => none

/-- A header in double brackets adds a table to a list of tables. -/
def addRow? : Option Node → Option Node
  | none => some (.rows [[]])
  | some (.rows tables) => some (.rows (tables ++ [[]]))
  | some _ => none

/-- Carries out a header, which names the table to change with its last key. -/
def header (change : Option Node → Option Node) (path : List String) (t : Table) :
    Option Table := do
  let key ← path.getLast?
  within path.dropLast (update key change) t

mutual

def nodeValue : Node → Value
  | .leaf v => v
  | .branch _ fields => .table (fieldValues fields)
  | .rows tables => .list (rowValues tables)

def fieldValues : List (String × Node) → List (String × Value)
  | [] => []
  | (key, n) :: rest => (key, nodeValue n) :: fieldValues rest

def rowValues : List (List (String × Node)) → List Value
  | [] => []
  | t :: rest => .table (fieldValues t) :: rowValues rest

end

end Table

end Naming.Toml

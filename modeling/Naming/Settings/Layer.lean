import Naming.Settings.Path

namespace Naming.Settings

abbrev Fields := List (String × Value)

namespace Value

/-- The fields of a table. Whatever is no table has none. -/
def fields : Value → Fields
  | table fields => fields
  | nothing | text _ | integer _ | decimal _ | flag _ | list _ => []

/-- The items of a list. Whatever is no list has none. -/
def items : Value → List Value
  | list items => items
  | nothing | text _ | integer _ | decimal _ | flag _ | table _ => []

/-- Changes what stands under a key. A new key comes last. -/
def alter (key : String) (change : Option Value → Value) : Fields → Fields
  | [] => [(key, change none)]
  | (k, v) :: rest =>
    if k = key then (k, change (some v)) :: rest else (k, v) :: alter key change rest

mutual

/-- A value over an older one. Tables are merged key by key, in small letters; an empty table leaves
the older value as it is, and all else takes its place. -/
def overlay : Value → Value → Value
  | table fields, old => overlayFields fields old
  | nothing, _ => nothing
  | text s, _ => text s
  | integer i, _ => integer i
  | decimal x, _ => decimal x
  | flag b, _ => flag b
  | list items, _ => list items

def overlayFields : List (String × Value) → Value → Value
  | [], old => old
  | (key, v) :: rest, old =>
    let change := fun o => overlay v (o.getD (table []))
    overlayFields rest (table (alter (Text.Lower.ofText key) change old.fields))

end

/-- Changes the item with a number. Where there is none, the list grows at that end far enough. -/
def alterItem (index : Int) (change : Value → Value) (items : List Value) : List Value :=
  let place := if index < 0 then index + items.length else index
  if place < 0 then change nothing :: List.replicate (place.natAbs - 1) nothing ++ items
  else
    let place := place.toNat
    let long := items ++ List.replicate (place + 1 - items.length) nothing
    long.modify place change

/-- Puts a value at the end of a path, through tables and lists made for it where there are none. An
item of a list is replaced as a whole. -/
def put (v : Value) : Path → Value → Value
  | [], old => v.overlay old
  | [.field name], old => overlayFields [(name, v)] old
  | .field name :: path, old =>
    let change := fun o => put v path (o.getD nothing)
    table (alter (Text.Lower.ofText name) change old.fields)
  | [.item i], old => list (alterItem i (fun _ => v) old.items)
  | .item i :: path, old => list (alterItem i (put v path) old.items)

end Value

/-- Puts the values of a source over those of the sources before it. -/
def addLayer (old : Value) (layer : Fields) : Value :=
  layer.foldl (fun v (key, new) => new.put (.ofKey key) v) old

/-- What a text from the environment stands for: a flag, a number, or the text itself. -/
def ofWord (word : String) : Value :=
  let lower := Text.Lower.ofText word
  if lower = "true" then .flag true
  else if lower = "false" then .flag false
  else
    match Decimal.integer? word with
    | some i =>
      if -Int.pow 2 63 ≤ i ∧ i < Int.pow 2 63 then .integer i
      else .decimal ((Decimal.ofText? word).getD 0)
    | none =>
      match Decimal.ofText? word with
      | some x => .decimal x
      | none => .text word

def variableStart : String := "namestore__"

/-- The settings among the variables: two underscores stand before the first key and between
keys. -/
def ofEnvironment (e : List (String × String)) : Fields :=
  e.filterMap fun (name, word) =>
    let name := Text.Lower.ofText name
    if name.startsWith variableStart then
      let keys := (name.toList.drop variableStart.length)
      some ((String.ofList keys).replace "__" ".", ofWord word)
    else none

end Naming.Settings

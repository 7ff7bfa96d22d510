import Naming.Settings
import Naming.Settings.Value

namespace Naming

namespace Settings.Value

/-- A field of a table, or the item of a list at the place of the field among all fields. -/
def member? (names : List String) (name : String) : Value → Option Value
  | table fields => fields.lookup name
  | list items => (names.zip items).lookup name
  | nothing | text _ | integer _ | decimal _ | flag _ => none

def isCompound : Value → Bool
  | table _ | list _ => true
  | nothing | text _ | integer _ | decimal _ | flag _ => false

/-- A text, or nothing at all. -/
def optionalText? : Value → Option (Option String)
  | nothing => some none
  | v => v.text?.map some

/-- Reads a field that has a default. -/
def memberOr {α : Type} (names : List String) (name : String) (read : Value → Option α)
    (fallback : α) (v : Value) : Option α :=
  match v.member? names name with
  | none => some fallback
  | some member => read member

def textEntries : List (String × Value) → Option (List (String × String))
  | [] => some []
  | (key, v) :: rest => do
    let s ← v.text?
    return (key, s) :: (← textEntries rest)

/-- The texts of a table. -/
def texts? : Value → Option (List (String × String))
  | table fields => textEntries fields
  | nothing | text _ | integer _ | decimal _ | flag _ | list _ => none

end Settings.Value

open Settings (Value)

def RetentionMode.ofValue? (v : Value) : Option RetentionMode := do
  let word := Text.Lower.ofText (← v.word?)
  [("none", RetentionMode.none), ("cache", RetentionMode.cache)].lookup word

def StorageSettings.ofValue? (e : Environment) (v : Value) : Option StorageSettings := do
  let names := ["path", "flush_on_write"]
  if !v.isCompound then none
  return {
    path := ← v.memberOr names "path" Value.text? (Settings.defaultStore e)
    flushOnWrite := ← v.memberOr names "flush_on_write" Value.flag? true }

def ActivationSettings.ofValue? (v : Value) : Option ActivationSettings := do
  let names := ["retention", "cache_capacity"]
  if !v.isCompound then none
  return {
    retention := ← v.memberOr names "retention" RetentionMode.ofValue? .none
    cacheCapacity := ← v.memberOr names "cache_capacity" Value.natural? 256 }

def LogSettings.ofValue? (v : Value) : Option LogSettings := do
  let names := ["enabled", "level", "format", "output", "file", "color", "modules"]
  if !v.isCompound then none
  return {
    enabled := ← v.memberOr names "enabled" Value.flag? true
    level := ← v.memberOr names "level" Value.text? "warn"
    format := ← v.memberOr names "format" Value.text? "text"
    output := ← v.memberOr names "output" Value.text? "stderr"
    file := ← v.memberOr names "file" Value.optionalText? none
    color := ← v.memberOr names "color" Value.flag? true
    modules := ← v.memberOr names "modules" Value.texts? [] }

/-- The settings that a table describes, if every value can be read as what it is asked for. -/
def Settings.ofValue? (e : Environment) (v : Value) : Option Settings := do
  let names := ["storage", "activation", "logging"]
  let store : StorageSettings := { path := Settings.defaultStore e }
  return {
    storage := ← v.memberOr names "storage" (StorageSettings.ofValue? e) store
    activation := ← v.memberOr names "activation" ActivationSettings.ofValue? {}
    logging := ← v.memberOr names "logging" LogSettings.ofValue? {} }

end Naming

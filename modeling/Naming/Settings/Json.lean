import Naming.Settings

namespace Naming

open Json (Decoder Fault)

/-- A field of an object, or the item of an array at the place of the field among all fields. -/
def Json.member? (names : List String) (name : String) : Json → Option Json
  | .obj fields => fields.lookup name
  | .arr items => (names.zip items).lookup name
  | _ => none

/-- An object, or an array with no more items than there are fields. -/
def Json.holds (names : List String) : Json → Bool
  | .obj _ => true
  | .arr items => items.length ≤ names.length
  | _ => false

/-- A field that has a default. -/
def Json.memberOr {α : Type} (names : List String) (name : String) (decode : Decoder α)
    (fallback : α) (j : Json) : Except Fault α := do
  return (← given decode (j.member? names name)).getD fallback

namespace StorageSettings

def fields : List String := ["path", "flush_on_write"]

def toJson (s : StorageSettings) : Json :=
  .obj [("path", .str s.path), ("flush_on_write", .bool s.flushOnWrite)]

def ofJson (e : Environment) : Decoder StorageSettings := fun j => do
  unless j.holds fields do throw .malformed
  let path ← j.memberOr fields "path" Json.text (Settings.defaultStore e)
  return ⟨path, ← j.memberOr fields "flush_on_write" Json.boolean true⟩

end StorageSettings

namespace RetentionMode

def name : RetentionMode → String
  | none => "none"
  | cache => "cache"

def all : List (String × RetentionMode) := [none, cache].map fun m => (m.name, m)

end RetentionMode

namespace ActivationSettings

def fields : List String := ["retention", "cache_capacity"]

def toJson (a : ActivationSettings) : Json :=
  .obj [("retention", .str a.retention.name), ("cache_capacity", .int a.cacheCapacity)]

def ofJson : Decoder ActivationSettings := fun j => do
  unless j.holds fields do throw .malformed
  let retention ← j.memberOr fields "retention" (Json.choice RetentionMode.all) .none
  return ⟨retention, ← j.memberOr fields "cache_capacity" Json.word 256⟩

end ActivationSettings

namespace LogSettings

def fields : List String :=
  ["enabled", "level", "format", "output", "file", "color", "modules"]

def toJson (l : LogSettings) : Json :=
  let file := match l.file with
    | some path => [("file", Json.str path)]
    | none => []
  .obj ([("enabled", .bool l.enabled), ("level", .str l.level), ("format", .str l.format),
    ("output", .str l.output)] ++ file ++ [("color", .bool l.color),
    ("modules", .obj (l.modules.map fun (m, level) => (m, .str level)))])

def ofJson : Decoder LogSettings := fun j => do
  unless j.holds fields do throw .malformed
  return {
    enabled := ← j.memberOr fields "enabled" Json.boolean true
    level := ← j.memberOr fields "level" Json.text "warn"
    format := ← j.memberOr fields "format" Json.text "text"
    output := ← j.memberOr fields "output" Json.text "stderr"
    file := ← j.memberOr fields "file" (Json.optional Json.text) none
    color := ← j.memberOr fields "color" Json.boolean true
    modules := ← j.memberOr fields "modules" (Json.dictionary Json.text) [] }

end LogSettings

namespace Settings

def fields : List String := ["storage", "activation", "logging"]

def toJson (s : Settings) : Json :=
  .obj [("storage", s.storage.toJson), ("activation", s.activation.toJson),
    ("logging", s.logging.toJson)]

def ofJson (e : Environment) : Decoder Settings := fun j => do
  unless j.holds fields do throw .malformed
  let storage ← j.memberOr fields "storage" (StorageSettings.ofJson e)
    ⟨defaultStore e, true⟩
  let activation ← j.memberOr fields "activation" ActivationSettings.ofJson {}
  return ⟨storage, activation, ← j.memberOr fields "logging" LogSettings.ofJson {}⟩

end Settings

end Naming

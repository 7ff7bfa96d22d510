import Naming.Settings.Json
import Naming.Toml.Written

namespace Naming

open Toml (line writeFlag writeText)

namespace Settings

def storageLines (s : StorageSettings) : List String :=
  ["[storage]\n", line "path" (writeText s.path), line "flush_on_write" (writeFlag s.flushOnWrite)]

def activationLines (a : ActivationSettings) : List String :=
  ["[activation]\n", line "retention" (writeText a.retention.name),
    line "cache_capacity" (toString a.cacheCapacity)]

def fileLine : Option String → List String
  | some file => [line "file" (writeText file)]
  | none => []

def logLines (l : LogSettings) : List String :=
  ["[logging]\n", line "enabled" (writeFlag l.enabled), line "level" (writeText l.level),
    line "format" (writeText l.format), line "output" (writeText l.output)] ++
  fileLine l.file ++ [line "color" (writeFlag l.color)]

def moduleLines (modules : List (String × String)) : List String :=
  "[logging.modules]\n" :: modules.map fun (name, level) => line name (writeText level)

/-- The settings as the text of a file that can be loaded again. Whole numbers of such a file are
those of 64 bits with a sign. -/
def toToml (s : Settings) : Except Failure String :=
  if s.activation.cacheCapacity < Nat.pow 2 63 then
    .ok (String.intercalate "\n" ([storageLines s.storage, activationLines s.activation,
      logLines s.logging, moduleLines s.logging.modules].map String.join))
  else .error (.configuration "out-of-range value for u64 type")

end Settings

end Naming

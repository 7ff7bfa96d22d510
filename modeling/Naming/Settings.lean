import Naming.Environment
import Naming.Failure
import Naming.Json.Decoding
import Naming.Resident

namespace Naming

inductive LogFormat where
  | text
  | json
deriving DecidableEq

def LogFormat.ofName : String → Except String LogFormat
  | "text" => .ok .text
  | "json" => .ok .json
  | other => .error s!"Invalid log format: {other} (must be 'json' or 'text')"

inductive LogOutput where
  | stdout
  | stderr
  | file
deriving DecidableEq

def LogOutput.ofName : String → Except String LogOutput
  | "stdout" => .ok .stdout
  | "stderr" => .ok .stderr
  | "file" => .ok .file
  | other => .error s!"Invalid log output: {other} (must be 'stdout', 'stderr', or 'file')"

/-- How the program logs. Words are kept as they were written until they are needed. -/
structure LogSettings where
  enabled : Bool := true
  level : String := "warn"
  format : String := "text"
  output : String := "stderr"
  file : Option String := none
  color : Bool := true
  modules : List (String × String) := []

structure StorageSettings where
  path : String
  flushOnWrite : Bool := true

inductive RetentionMode where
  | none
  | cache
deriving DecidableEq

structure ActivationSettings where
  retention : RetentionMode := .none
  cacheCapacity : Nat := 256

structure Settings where
  storage : StorageSettings
  activation : ActivationSettings := {}
  logging : LogSettings := {}

namespace LogSettings

/-- The first problem with these settings; the format is looked at before the output. -/
def problem? (l : LogSettings) : Option String :=
  match LogFormat.ofName l.format with
  | .error reason => some reason
  | .ok _ =>
    match LogOutput.ofName l.output with
    | .error reason => some reason
    | .ok .file => if l.file.isNone then some "output \"file\" requires a log file path" else none
    | .ok _ => none

end LogSettings

def ActivationSettings.policy (a : ActivationSettings) : Retention :=
  match a.retention with
  | .none => .none
  | .cache => .cache a.cacheCapacity

namespace Settings

/-- Without a folder for data the store is kept below the current directory. -/
def defaultStore (e : Environment) : String :=
  match e.dataFolder? with
  | some folder => Path.join folder "namestore/store"
  | none => ".namestore/store"

def default (e : Environment) : Settings := { storage := { path := defaultStore e } }

/-- All that is wrong with the settings, part by part. -/
def problems (s : Settings) : List String :=
  (if s.storage.path.isEmpty then ["Storage: Store path cannot be empty"] else []) ++
  (if s.activation.policy = .cache 0 then
    ["Activation: cache_capacity must be positive when retention is \"cache\""] else []) ++
  (match s.logging.problem? with
    | some reason => ["Logging: " ++ reason]
    | none => [])

def check (s : Settings) : Except Failure Unit :=
  if s.problems.isEmpty then .ok ()
  else
    let lines := "Configuration validation failed:" :: s.problems
    .error (.configuration (String.intercalate "\n" lines))

end Settings

end Naming

import Naming.Settings.Layer
import Naming.Settings.Reading
import Naming.Toml.Document

namespace Naming.Settings

/-- The file of the user, for all workspaces. -/
def globalPath? (e : Environment) : Option String :=
  (e.get? "HOME").map fun home => Path.join home ".config/namestore/config.toml"

/-- The files of a workspace: one for all uses, and one for the use that the environment names. -/
def workspacePaths (e : Environment) (workspace : String) : List String :=
  let folder := Path.join workspace "config"
  let use := (e.get? "NAMESTORE_ENV").getD "development"
  [Path.join folder "config.toml", Path.join folder (use ++ ".toml")]

def defaultLayer (e : Environment) : Fields :=
  [("storage.path", .text (defaultStore e)), ("storage.flush_on_write", .flag true),
    ("activation.retention", .text "none"), ("activation.cache_capacity", .integer 256)]

/-- The text of a settings file. Its ending need not be given. -/
def fileText? (f : Files) (path : String) : Option String :=
  (f.text? path).or ((Path.addEnding? path ".toml").bind f.text?)

/-- The values of a settings file. -/
def readFile (path text : String) : Except Failure Fields :=
  match Toml.read text with
  | some fields => .ok fields
  | none => .error (.configuration s!"{path} is not well formed")

/-- The values of a file that need not be there. -/
def optionalLayer (f : Files) (path : String) : Except Failure Fields :=
  if f.has path then
    match fileText? f path with
    | some text => readFile path text
    | none => .ok []
  else .ok []

def requiredLayer (f : Files) (path : String) : Except Failure Fields :=
  match fileText? f path with
  | some text => readFile path text
  | none => .error (.configuration s!"configuration file \"{path}\" not found")

def merge (e : Environment) (layers : List Fields) : Except Failure Settings :=
  match ofValue? e ((defaultLayer e :: layers).foldl addLayer (.table [])) with
  | some settings => .ok settings
  | none => .error (.configuration "a value is not of the kind that its key asks for")

/-- The settings for a workspace: the defaults, the file of the user, the files of the workspace and
the environment, each over those before it. -/
def load (e : Environment) (f : Files) (workspace : String) : Except Failure Settings := do
  let paths := (globalPath? e).toList ++ workspacePaths e workspace
  let layers ← paths.mapM (optionalLayer f)
  merge e (layers ++ [ofEnvironment e])

/-- The settings in one file over the defaults. -/
def loadFile (e : Environment) (f : Files) (path : String) : Except Failure Settings := do
  merge e [← requiredLayer f path]

end Naming.Settings

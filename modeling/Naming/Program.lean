import Naming.Command.Line
import Naming.Listing.Frame
import Naming.Log.Logger
import Naming.Settings.Sources

namespace Naming

/-- What one run of the program leaves for the next: the files, the disk below each folder that was
opened as a store, and the events in each file of events. -/
structure Host where
  files : Files := {}
  disks : List (Location × Disk) := []
  journals : List (Location × List Log.Event) := []

namespace Host

def disk (h : Host) (path : String) : Disk := (h.disks.lookup (Files.place path)).getD {}

def setDisk (h : Host) (path : String) (d : Disk) : Host :=
  let place := Files.place path
  { h with disks := (place, d) :: h.disks.filter (·.1 ≠ place) }

/-- The events in a file, from the oldest on. -/
def journal (h : Host) (path : String) : List Log.Event :=
  (h.journals.lookup (Files.place path)).getD []

/-- Writes events to the end of a file, as a logger writes them. -/
def record (h : Host) (logger : Log.Logger) (path : String) (events : List Log.Event) : Host :=
  let place := Files.place path
  { h with
    files := h.files.append path (logger.lines events)
    journals := (place, h.journal path ++ events) :: h.journals.filter (·.1 ≠ place) }

def removeFile (h : Host) (path : String) : Host :=
  { h with
    files := h.files.remove path
    journals := h.journals.filter (·.1 ≠ Files.place path) }

end Host

/-- What a run of the program shows. -/
structure Outcome where
  code : Nat
  output : String := ""
  errors : String := ""
  logger : Option Log.Logger := none
  events : List Log.Event := []

namespace Program

/-- The settings that a command line asks for: those of one file, or those of a workspace. -/
def settingsFor (l : CommandLine) (e : Environment) (f : Files) : Except Failure Settings :=
  match l.settings with
  | some path => Settings.loadFile e f path
  | none => Settings.load e f l.workspace

/-- How to log. Settings that cannot be had are left at their defaults for now, and the options of
the command line go before all settings. -/
def logSettings (l : CommandLine) (e : Environment) (f : Files) : LogSettings :=
  let given := match settingsFor l e f with
    | .ok settings => settings.logging
    | .error _ => {}
  let level := if l.verbose then "debug" else given.level
  { given with
    enabled := given.enabled && !l.quiet
    level := l.logLevel.getD level
    format := l.logFormat.getD given.format
    output := l.logOutput.getD given.output
    file := l.logFile.or given.file }

/-- The paths of all files that settings may come from. -/
def settingsPaths (l : CommandLine) (e : Environment) : List String :=
  let paths := match l.settings with
    | some path => [path]
    | none => (Settings.globalPath? e).toList ++ Settings.workspacePaths e l.workspace
  paths ++ paths.filterMap (Path.addEnding? · ".toml")

/-- The path of the store, when the settings can be had. -/
def storePath? (l : CommandLine) (e : Environment) (f : Files) : Option String :=
  match settingsFor l e f with
  | .ok settings => some (l.store.getD settings.storage.path)
  | .error _ => none

/-- Puts on record that the user has no settings file, where one is looked for. -/
def missingGlobal (l : CommandLine) (e : Environment) (f : Files) : List Log.Event :=
  match l.settings, Settings.globalPath? e with
  | none, some path =>
    if f.has path then []
    else [⟨.debug, .globalSettings, "No global configuration file; using defaults",
      [("config_path", .text path)]⟩]
  | _, _ => []

/-- The settings to serve with, if they are sound. -/
def soundSettings (l : CommandLine) (e : Environment) (f : Files) : Except Failure Settings := do
  let settings ← settingsFor l e f
  let settings := { settings with storage.path := l.store.getD settings.storage.path }
  settings.check
  return settings

/-- The settings to serve with, once there is a folder for the store. -/
def prepare (l : CommandLine) (e : Environment) (f : Files) : Except Failure Settings × Files :=
  match soundSettings l e f with
  | .error failure => (.error failure, f)
  | .ok settings =>
    let (made, f) := f.makeFolder settings.storage.path
    ((made.mapError fun fault => .storage (.io fault.message)).map fun _ => settings, f)

def openingFailed (f : Failure) : Log.Event :=
  ⟨.error, .program, "Error opening name service: " ++ f.message, []⟩

def commandFailed (f : Failure) : Log.Event :=
  ⟨.error, .program, "Command failed: " ++ f.message, []⟩

/-- Starts the service and carries out a command. -/
def request (c : Command) : Request String := do
  match ← Service.start.attempt with
  | .error failure =>
    Request.note (openingFailed failure)
    throw failure
  | .ok service =>
    Request.note ⟨.debug, .program, "Name service opened", [("root", .text service.root.text)]⟩
    match ← (service.execute c).attempt with
    | .error failure =>
      Request.note (commandFailed failure)
      throw failure
    | .ok output => return output

def fail (f : Failure) : Outcome := { code := 1, errors := f.advice ++ "\n" }

/-- Keeps the events that pass the filter of the logger, in its file if it has one. -/
def putOnRecord (logger : Option Log.Logger) (o : Outcome) (events : List Log.Event) (h : Host) :
    Outcome × Host :=
  match logger with
  | none => (o, h)
  | some logger =>
    let events := events.filter logger.filter.admits
    let h := match logger.output, logger.file with
      | .file, some path => h.record logger path events
      | _, _ => h
    ({ o with logger := some logger, events := o.events ++ events }, h)

/-- The part of a run that comes once the store is to be opened, with its events. -/
def serve (l : CommandLine) (e : Environment) (h : Host) : Outcome × List Log.Event × Host :=
  match prepare l e h.files with
  | (.error failure, files) => (fail failure, [openingFailed failure], { h with files := files })
  | (.ok settings, files) =>
    let h := { h with files := files }
    let path := settings.storage.path
    let server : Server :=
      { store := { disk := h.disk path }, memory := { retention := settings.activation.policy } }
    match (request l.command).serve server with
    | none => ({ code := 1 }, [], h)
    | some (answer, server) =>
      let h := h.setDisk path server.store.disk
      let events := server.events.reverse
      match answer with
      | .ok output => ({ code := 0, output := output ++ "\n" }, events, h)
      | .error failure => (fail failure, events, h)

/-- The code of a run whose arguments are no command line. -/
def usageCode : CommandLine.Fault → Nat
  | .helpWanted => 0
  | _ => 2

/-- One run of the program. -/
def run (args : List String) (e : Environment) (h : Host) : Outcome × Host :=
  match CommandLine.ofArguments args with
  | .error fault => ({ code := usageCode fault }, h)
  | .ok l =>
    let setup := Log.setUp (logSettings l e h.files) e h.files
    let ignored := String.join (setup.ignored.map fun i => i.message ++ "\n")
    let h := { h with files := setup.files }
    match setup.result with
    | .error failure =>
      ({ code := 1, errors := ignored ++ s!"Failed to initialize logging: {failure.message}\n" }, h)
    | .ok logger =>
      let (before, h) := putOnRecord logger { code := 0 } (missingGlobal l e h.files) h
      let (o, events, h) := serve l e h
      putOnRecord logger { o with errors := ignored ++ o.errors, events := before.events } events h

end Program

end Naming

import Naming.Disk.Written
import Naming.Program

namespace Naming.Main

/-- What an action gives, if it does not fail. -/
def attempt {α : Type} (action : IO α) : IO (Option α) :=
  try return some (← action) catch _ => return none

/-- The variables that the process was started with. -/
def readEnvironment : IO Environment := do
  match ← attempt (IO.FS.readFile "/proc/self/environ") with
  | none => return []
  | some text =>
    return (text.splitOn "\x00").filterMap fun entry =>
      match entry.splitOn "=" with
      | name :: value :: rest => some (name, String.intercalate "=" (value :: rest))
      | _ => none

def pathOf (place : Location) : String :=
  match place with
  | "/" :: rest => "/" ++ String.intercalate "/" rest
  | [] => "."
  | parts => String.intercalate "/" parts

/-- Notes what is at a place. A folder can be opened but not read. -/
def observePlace (f : Files) (place : Location) : IO Files := do
  match ← attempt (IO.FS.Handle.mk (pathOf place) .read) with
  | none => return f
  | some handle =>
    match ← attempt handle.readToEnd with
    | some text => return f.put place (.file text)
    | none => return f.put place (.folder [])

/-- Notes what is on the way to the end of a path. -/
def observe (f : Files) (path : String) : IO Files := do
  let place := Files.place path
  let ways := (List.range place.length).map fun n => place.take (n + 1)
  ways.foldlM (fun f way => if f.isFile way || f.isFolder way then pure f else observePlace f way) f

def diskFile (store : String) : String := Path.join store "contexts"

/-- The disk in a store. A store without one is new. -/
def readDisk (store : String) : IO Disk := do
  match ← attempt (IO.FS.readFile (diskFile store)) with
  | none => return {}
  | some text =>
    match Disk.ofText? text with
    | some disk => return disk
    | none => throw (IO.userError s!"{diskFile store} is damaged")

/-- Writes a disk beside the old one before it takes its place. -/
def writeDisk (store : String) (disk : Disk) : IO Unit := do
  let fresh := diskFile store ++ ".new"
  IO.FS.writeFile fresh disk.text
  IO.FS.rename fresh (diskFile store)

def makeFolders (before after : Files) : IO Unit :=
  ((after.root.folders []).filter (! before.isFolder ·)).forM fun place =>
    IO.FS.createDirAll (pathOf place)

def writeEvents (logger : Log.Logger) (events : List Log.Event) : IO Unit := do
  match logger.output, logger.file with
  | .stdout, _ => (← IO.getStdout).putStr (logger.lines events)
  | .stderr, _ => (← IO.getStderr).putStr (logger.lines events)
  | .file, some path => (← IO.FS.Handle.mk path .append).putStr (logger.lines events)
  | .file, none => return

/-- What the program can see of the files that a command line is about. -/
def observeAll (l : CommandLine) (e : Environment) : IO (Files × Option String) := do
  let f ← (Program.settingsPaths l e).foldlM observe {}
  let store := Program.storePath? l e f
  let f ← ((Program.logSettings l e f).file.toList ++ store.toList).foldlM observe f
  return (f, store)

def start (args : List String) : IO UInt32 := do
  let e ← readEnvironment
  let (files, store) ← match CommandLine.ofArguments args with
    | .ok l => observeAll l e
    | .error _ => pure ({}, none)
  let disks ← store.toList.mapM fun path => do return (Files.place path, ← readDisk path)
  let (o, h) := Program.run args e { files := files, disks := disks }
  makeFolders files h.files
  for path in store.toList do
    if h.files.isFolder (Files.place path) then writeDisk path (h.disk path)
  for logger in o.logger.toList do writeEvents logger o.events
  (← IO.getStdout).putStr o.output
  (← IO.getStderr).putStr o.errors
  return o.code.toUInt32

end Naming.Main

def main (args : List String) : IO UInt32 := Naming.Main.start args

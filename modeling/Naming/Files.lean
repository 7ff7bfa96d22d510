namespace Naming

/-- The names of the folders from the working directory, or from the top, down to a place. -/
abbrev Location := List String

namespace Path

/-- The place that a path names when it is taken from a folder. -/
def join (folder path : String) : String :=
  if path.startsWith "/" || folder.isEmpty then path
  else if folder.endsWith "/" then folder ++ path
  else folder ++ "/" ++ path

def isRooted (path : String) : Bool := path.startsWith "/"

def start (path : String) : Location := if isRooted path then ["/"] else []

/-- The names between the slashes of a path. -/
def names (path : String) : List String := (path.splitOn "/").filter (· ≠ "")

/-- The names without those that lead nowhere. -/
def steps (path : String) : List String := (names path).filter (· ≠ ".")

def ofSteps (isRooted : Bool) (steps : List String) : String :=
  (if isRooted then "/" else "") ++ String.intercalate "/" steps

/-- The paths of the folders that a path leads through, the innermost first. Neither the folder that
the path is taken from nor the top is among them. -/
def folders (path : String) : List String :=
  let steps := steps path
  let starts := (List.range (steps.length - 1)).map fun n => steps.take (n + 1)
  (starts.map (ofSteps (isRooted path))).reverse

def up (here : Location) : Location :=
  if here = ["/"] then here
  else
    match here.getLast? with
    | none | some ".." => here ++ [".."]
    | some _ => here.dropLast

/-- The path with an ending added to the name of the file. -/
def addEnding? (path ending : String) : Option String :=
  match (steps path).reverse with
  | [] => none
  | last :: rest =>
    if last = ".." then none
    else some (ofSteps (isRooted path) (rest.reverse ++ [last ++ ending]))

/-- How long a name may be, in bytes. -/
def longestName : Nat := 255

/-- How long a path may be, in bytes. -/
def longest : Nat := 4095

def isLongName (name : String) : Bool := longestName < name.utf8ByteSize

/-- Names that lead to a folder that is there already. -/
def isDots (name : String) : Bool := name = "." || name = ".."

/-- Where a name leads to from a folder. -/
def step (here : Location) (name : String) : Location :=
  if name = "." then here else if name = ".." then up here else here ++ [name]

end Path

/-- Why a folder cannot be made, or a file cannot be opened. -/
inductive FileFault where
  | nothingThere
  | fileThere
  | notAFolder
  | folderThere
  | longName
  | zeroCharacter
deriving DecidableEq

def FileFault.message : FileFault → String
  | nothingThere => "No such file or directory (os error 2)"
  | fileThere => "File exists (os error 17)"
  | notAFolder => "Not a directory (os error 20)"
  | folderThere => "Is a directory (os error 21)"
  | longName => "File name too long (os error 36)"
  | zeroCharacter => "file name contained an unexpected NUL byte"

/-- What is at a place: a file with its text, or a folder with its entries by name. -/
inductive Entry where
  | file (text : String)
  | folder (entries : List (String × Entry))

namespace Entry

instance : Inhabited Entry := ⟨folder []⟩

def isFolder : Entry → Bool
  | file _ => false
  | folder _ => true

def text? : Entry → Option String
  | file text => some text
  | folder _ => none

def entries : Entry → List (String × Entry)
  | file _ => []
  | folder entries => entries

/-- The top, and the folders above the working directory, are there without being made. -/
def isLasting (name : String) : Bool := name = "/" || name = ".."

def child? (e : Entry) (name : String) : Option Entry :=
  match e.entries.lookup name with
  | some child => some child
  | none => if isLasting name then some (folder []) else none

/-- The entry at a place below another one. -/
def at? (e : Entry) : Location → Option Entry
  | [] => some e
  | name :: rest => do (← e.child? name).at? rest

/-- Puts an entry at a place, in folders made for it where there are none. -/
def put : Entry → Location → Entry → Entry
  | _, [], new => new
  | e, name :: rest, new =>
    let child := put ((e.child? name).getD (folder [])) rest new
    folder ((name, child) :: e.entries.filter (·.1 ≠ name))

/-- Takes away the entry at a place, if there is one. -/
def remove : Entry → Location → Entry
  | file text, _ => file text
  | folder entries, [] => folder entries
  | folder entries, [name] => folder (entries.filter (·.1 ≠ name))
  | folder entries, name :: rest => folder (entries.map fun (other, child) =>
      (other, if other = name then remove child rest else child))

mutual

/-- The places of all folders below one, those that are further up before those in them. -/
def folders (here : Location) : Entry → List Location
  | file _ => []
  | folder entries => foldersIn here entries

def foldersIn (here : Location) : List (String × Entry) → List Location
  | [] => []
  | (name, child) :: rest =>
    let place := here ++ [name]
    let below := child.folders place
    (if child.isFolder then place :: below else below) ++ foldersIn here rest

end

end Entry

/-- All that the program knows of files and folders, as seen from the working directory. -/
structure Files where
  root : Entry := .folder []

/-- A way down from the working directory, or from the top: the names on it and what they lead to,
the innermost first. -/
abbrev Way := List (String × Entry)

def Way.place (w : Way) : Location := (w.map (·.1)).reverse

namespace Files

def isFile (f : Files) (place : Location) : Bool := (f.root.at? place).any (! ·.isFolder)

def isFolder (f : Files) (place : Location) : Bool := (f.root.at? place).any (·.isFolder)

/-- What is at the end of a way. -/
def entryAt (f : Files) (w : Way) : Entry := (w.head?.map (·.2)).getD f.root

/-- The way of a path before its first name. -/
def start (f : Files) (path : String) : Way :=
  if Path.isRooted path then [("/", (f.root.child? "/").getD (.folder []))] else []

/-- Goes on to a name in the folder at the end of a way. -/
def step? (f : Files) (w : Way) (name : String) : Option Way :=
  let down := ((f.entryAt w).child? name).map fun e => (name, e) :: w
  if name = "." then some w
  else if name = ".." then
    match w with
    | [] => down
    | (last, _) :: above => if last = "/" then some w else if last = ".." then down else some above
  else down

/-- Where names lead to. Each has to be that of a folder. -/
def walk (f : Files) (w : Way) : List String → Except FileFault Way
  | [] => .ok w
  | name :: rest =>
    if Path.isLongName name then .error .longName
    else
      match f.step? w name with
      | none => .error .nothingThere
      | some next => if (f.entryAt next).isFolder then f.walk next rest else .error .notAFolder

/-- The way to the folder that the last name of a path belongs to, and that name. There is none when
the path leads to the top. -/
def approach (f : Files) (path : String) : Except FileFault (Way × Option String) :=
  if path.contains '\x00' then .error .zeroCharacter
  else if path.isEmpty then .error .nothingThere
  else if Path.longest < path.utf8ByteSize then .error .longName
  else do
    let names := Path.names path
    return (← f.walk (f.start path) names.dropLast, names.getLast?)

/-- The way to the file or folder at a path. A file is not what a path with a slash at its end leads
to. -/
def find? (f : Files) (path : String) : Option Way :=
  match f.approach path with
  | .error _ => none
  | .ok (w, none) => some w
  | .ok (w, some name) =>
    (f.step? w name).filter fun w => (f.entryAt w).isFolder || !path.endsWith "/"

def has (f : Files) (path : String) : Bool := (f.find? path).isSome

def leadsToFolder (f : Files) (path : String) : Bool :=
  (f.find? path).any fun w => (f.entryAt w).isFolder

def text? (f : Files) (path : String) : Option String := do (f.entryAt (← f.find? path)).text?

/-- The place that a path names when all that it leads through is a folder. -/
def place (path : String) : Location := (Path.steps path).foldl Path.step (Path.start path)

def put (f : Files) (place : Location) (e : Entry) : Files := ⟨f.root.put place e⟩

def write (f : Files) (path text : String) : Files := f.put (place path) (.file text)

def remove (f : Files) (path : String) : Files := ⟨f.root.remove (place path)⟩

/-- Writes to the end of a file. -/
def append (f : Files) (path text : String) : Files :=
  match f.find? path with
  | none => f
  | some w =>
    match f.entryAt w with
    | .file old => f.put w.place (.file (old ++ text))
    | .folder _ => f

/-- Makes one folder in a folder that is there. -/
def makeOne (f : Files) (path : String) : Except FileFault Files := do
  match ← f.approach path with
  | (_, none) => .error .fileThere
  | (w, some name) =>
    if Path.isDots name then .error .fileThere
    else if Path.isLongName name then .error .longName
    else if (f.step? w name).isSome then .error .fileThere
    else return f.put (w.place ++ [name]) (.folder [])

/-- Makes a folder unless it is there. Where the way to it ends before, the folders of the way are
made first, and stay when the folder itself cannot be made. -/
def makeThrough (path : String) : List String → Files → Except FileFault Unit × Files
  | folders, f =>
    let settle := fun (f : Files) (fault : FileFault) =>
      (if f.leadsToFolder path then Except.ok () else .error fault, f)
    match f.makeOne path with
    | .ok f => (.ok (), f)
    | .error .nothingThere =>
      match folders with
      | [] => settle f .nothingThere
      | folder :: more =>
        match makeThrough folder more f with
        | (.error fault, f) => (.error fault, f)
        | (.ok (), f) =>
          match f.makeOne path with
          | .ok f => (.ok (), f)
          | .error fault => settle f fault
    | .error fault => settle f fault

def makeFolder (f : Files) (path : String) : Except FileFault Unit × Files :=
  if path.isEmpty then (.ok (), f) else makeThrough path (Path.folders path) f

/-- Makes the folder that a file is to be in. -/
def makeParent (f : Files) (path : String) : Except FileFault Unit × Files :=
  match Path.folders path with
  | [] => (.ok (), f)
  | folder :: more => makeThrough folder more f

/-- Opens a file to write to its end. One that is not there is made. -/
def openFile (f : Files) (path : String) : Except FileFault Files := do
  match ← f.approach path with
  | (_, none) => .error .folderThere
  | (w, some name) =>
    if Path.isDots name || path.endsWith "/" then .error .folderThere
    else if Path.isLongName name then .error .longName
    else
      match f.step? w name with
      | none => return f.put (w.place ++ [name]) (.file "")
      | some w => if (f.entryAt w).isFolder then .error .folderThere else return f

end Files

end Naming

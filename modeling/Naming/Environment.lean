import Naming.Files

namespace Naming

/-- The variables that a program is started with. -/
abbrev Environment := List (String × String)

namespace Environment

def get? (e : Environment) (name : String) : Option String := e.lookup name

/-- Where programs keep the data of the user: a folder of its own if it is named from the top, or
else a folder below the home of the user. -/
def dataFolder? (e : Environment) : Option String :=
  match e.get? "XDG_DATA_HOME" with
  | some folder => if folder.startsWith "/" then some folder else below
  | none => below
where
  below : Option String := do
    let home ← e.get? "HOME"
    if home.isEmpty then none else some (Path.join home ".local/share")

end Environment

end Naming

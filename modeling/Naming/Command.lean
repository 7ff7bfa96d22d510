import Naming.Listing
import Naming.Sweep

namespace Naming

/-- What a user asks for on the command line. Names and references are still text. -/
inductive Command where
  | root
  | bind (name reference : String)
  | rebind (name reference : String)
  | resolve (name : String)
  | unbind (name : String)
  | list (name : Option String) (max : Nat) (format : String)
  | makeContext (name : String)
  | destroy (name : String)
  | sweep
deriving DecidableEq

namespace Command

def name : Command → String
  | root => "root"
  | bind .. => "bind"
  | rebind .. => "rebind"
  | resolve _ => "resolve"
  | unbind _ => "unbind"
  | list .. => "list"
  | makeContext _ => "mkctx"
  | destroy _ => "destroy"
  | sweep => "sweep"

def readName (text : String) : Request Name := Request.ofFault (Name.ofText text)

/-- Shows a page of a context. The form is looked at only when the page is there. -/
def page [Drawing] (c : Context) (max : Nat) (format : String) : Request String := do
  let (bindings, more) ← c.list max
  let listing : Listing := ⟨c.key, bindings, (more.map (·.size)).getD 0⟩
  match format with
  | "json" => return listing.toJson.pretty
  | "text" => return listing.text
  | other =>
    throw (.configuration s!"Invalid output format: {other} (must be 'text' or 'json')")

/-- Unbinds a name and destroys the context that it was bound to. If the context cannot be
destroyed, the name is bound to it again, as the last of its parent. -/
def destroyAt (root : Context) (name : Name) : Request String := do
  let c ← root.resolveContext name
  root.unbind name
  match ← c.destroy.attempt with
  | .ok () => return s!"Destroyed {name.text} ({c.key.text})"
  | .error failure =>
    Request.note ⟨.warn, .command, "Destroy failed; restoring binding",
      [("name", .text name.text), ("key", .text c.key.text), ("error", .text failure.message)]⟩
    root.bindContext name c.key
    throw failure

def sweepReport (removed : List ContextKey) : String :=
  if removed.isEmpty then "No unreachable contexts."
  else s!"Removed {removed.length}: " ++ String.intercalate ", " (removed.map (·.text))

/-- Carries out a command and gives the text to print. -/
def run [Drawing] (s : Service) : Command → Request String
  | root => return s.root.text
  | bind name reference => do
    let name ← readName name
    match Target.ofText reference with
    | .object reference => s.rootContext.bind name reference
    | .context key => s.rootContext.bindContext name key
    return s!"Bound {name.text}"
  | rebind name reference => do
    let name ← readName name
    match Target.ofText reference with
    | .object reference => s.rootContext.rebind name reference
    | .context key => s.rootContext.rebindContext name key
    return s!"Rebound {name.text}"
  | resolve name => return (← s.rootContext.resolveText name).text
  | unbind name => do
    let name ← readName name
    s.rootContext.unbind name
    return s!"Unbound {name.text}"
  | list none max format => page s.rootContext max format
  | list (some name) max format => do
    page (← s.rootContext.resolveContext (← readName name)) max format
  | makeContext name => return (← s.rootContext.bindNewContext (← readName name)).key.text
  | destroy name => do destroyAt s.rootContext (← readName name)
  | sweep => return sweepReport (← s.sweep)

end Command

/-- Carries out a command and puts on record how it went. No time passes here, so the event has a
field for the time that the command took, and nothing to fill it with. -/
def Service.execute [Drawing] (s : Service) (c : Command) : Request String := do
  let result ← (c.run s).attempt
  Request.note ⟨.info, .command, "Command finished",
    [("command", .text c.name), ("ok", .flag result.isOk), ("elapsed_ms", .number 0)]⟩
  Request.ofExcept result

end Naming

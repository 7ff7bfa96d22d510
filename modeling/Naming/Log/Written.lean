import Naming.Json
import Naming.Log.Event

namespace Naming.Log

def Level.label : Level → String
  | .error => "ERROR"
  | .warn => "WARN"
  | .info => "INFO"
  | .debug => "DEBUG"
  | .trace => "TRACE"

def Value.toJson : Value → Json
  | .text s => .str s
  | .number n => .int n
  | .flag b => .bool b

namespace Event

def toJson (e : Event) : Json :=
  .obj [("level", .str e.level.label),
    ("fields", .obj (("message", .str e.message) ::
      e.fields.map fun (name, v) => (name, v.toJson))),
    ("target", .str e.source.target)]

def fieldText : String × Value → String
  | (name, .text s) => s!" {name}={s}"
  | (name, .number n) => s!" {name}={n}"
  | (name, .flag b) => s!" {name}={b}"

/-- The event on one line, for people to read. -/
def text (e : Event) : String :=
  s!"{e.level.label} {e.source.target}: {e.message}" ++ String.join (e.fields.map fieldText)

end Event

end Naming.Log

import Naming.Wire

namespace Naming

/-- What draws a table from the cells of its head and those of each row. It is not part of the
service, which goes by what it is told to draw. -/
class Drawing where
  draw : List String → List (List String) → String

/-- One page of a context's bindings, with the number of those that follow. -/
structure Listing where
  context : ContextKey
  bindings : List Binding
  remaining : Nat

namespace Listing

/-- A target as a table shows it; its type has a column of its own. -/
def shown : Target → String
  | .object reference => reference
  | .context key => key.text

def row (b : Binding) : List String := [b.name.id, b.name.kind, b.type.text, shown b.target]

def text [Drawing] (l : Listing) : String :=
  let title := s!"Context {l.context.text}\n\n"
  if l.bindings.isEmpty then title ++ "No bindings."
  else
    let table := Drawing.draw ["Id", "Kind", "Type", "Target"] (l.bindings.map row)
    let more :=
      if l.remaining > 0 then s!"\n\n{l.remaining} more (raise --max to see them)" else ""
    title ++ table ++ more

def toJson (l : Listing) : Json :=
  .obj [("context", l.context.toJson), ("bindings", .arr (l.bindings.map Binding.toJson)),
    ("remaining", .int l.remaining)]

end Listing

end Naming

import Naming.Call
import Naming.Json.Decoding
import Naming.Record

namespace Naming

open Json (Decoder Fault)

namespace Json

/-- Letters within a name in camel case: every capital starts a word. -/
def lowLined : List Char → List Char
  | [] => []
  | c :: rest =>
    if c.isUpper then '_' :: c.toLower :: lowLined rest else c :: lowLined rest

/-- The words of a name in camel case, in small letters with a low line between them. -/
def snakeCase (name : String) : String :=
  match name.toList with
  | [] => ""
  | c :: rest => String.ofList (c.toLower :: lowLined rest)

end Json

namespace Component

def toJson (c : Component) : Json := .obj [("id", .str c.id), ("kind", .str c.kind)]

def ofJson : Decoder Component := fun j => do
  let (id, kind) ← Json.two "id" Json.text "kind" Json.text j
  return ⟨id, kind⟩

end Component

namespace Name

def toJson (n : Name) : Json := .arr (n.components.map Component.toJson)

def ofJson : Decoder Name := fun j => do
  let components ← Json.list Component.ofJson j
  match ofComponents components with
  | .ok name => return name
  | .error fault => throw (.invalidName fault)

end Name

namespace ContextKey

def toJson (k : ContextKey) : Json := .str k.text

def ofJson : Decoder ContextKey := fun j => (Json.text j).map ContextKey.mk

end ContextKey

namespace BindingType

def name : BindingType → String
  | object => "object"
  | context => "context"

def toJson (t : BindingType) : Json := .str t.name

def ofJson : Decoder BindingType :=
  Json.choice ([object, context].map fun t => (t.name, t))

end BindingType

namespace Target

/-- A target is an object of one field, which tells its type. -/
def toJson : Target → Json
  | object reference => .obj [("object", .str reference)]
  | context key => .obj [("context", key.toJson)]

def ofJson : Decoder Target
  | .obj [("object", j)] => (Json.text j).map object
  | .obj [("context", j)] => (ContextKey.ofJson j).map context
  | _ => .error .malformed

end Target

namespace Binding

def toJson (b : Binding) : Json := .obj [("name", b.name.toJson), ("target", b.target.toJson)]

def ofJson : Decoder Binding := fun j => do
  let (name, target) ← Json.two "name" Component.ofJson "target" Target.ofJson j
  return ⟨name, target⟩

end Binding

namespace BindingSet

def toJson (s : BindingSet) : Json := .arr (s.entries.map Binding.toJson)

def ofJson : Decoder BindingSet := fun j => (Json.list Binding.ofJson j).map ofList

end BindingSet

namespace Record

def toJson (r : Record) : Json :=
  .obj [("version", .int r.version), ("key", r.key.toJson), ("bindings", r.bindings.toJson)]

def ofJson : Decoder Record
  | .obj fields => do
    let version ← Json.required
      (← Json.given (Json.natural (Nat.pow 2 32)) (fields.lookup "version"))
    let key ← Json.required (← Json.given ContextKey.ofJson (fields.lookup "key"))
    let bindings ← Json.required (← Json.given BindingSet.ofJson (fields.lookup "bindings"))
    return ⟨version, key, bindings⟩
  | .arr [version, key, bindings] => do
    return ⟨← Json.natural (Nat.pow 2 32) version, ← ContextKey.ofJson key,
      ← BindingSet.ofJson bindings⟩
  | _ => .error .malformed

end Record

namespace Operation

/-- What the operation is called as one variant of several. -/
def variant : Operation → String
  | bind => "Bind"
  | bindContext => "BindContext"
  | rebind => "Rebind"
  | rebindContext => "RebindContext"
  | resolve => "Resolve"
  | unbind => "Unbind"
  | list => "List"
  | newContext => "NewContext"
  | bindNewContext => "BindNewContext"
  | destroy => "Destroy"
  | toText => "ToString"
  | toName => "ToName"
  | resolveText => "ResolveStr"

/-- The tag is made from the variant and has nothing to do with the name of the operation. -/
def tag (o : Operation) : String := Json.snakeCase o.variant

def toJson (o : Operation) : Json := .str o.tag

def ofJson : Decoder Operation := Json.choice (all.map fun o => (o.tag, o))

end Operation

/-- An object with a tag in one of its fields, or an array with the tag first; the tag and what is
left. -/
def Json.tagged (field : String) : Decoder (String × Json)
  | .obj fields => do
    let tag ← Json.required (← Json.given Json.text (fields.lookup field))
    return (tag, .obj (fields.filter (·.1 ≠ field)))
  | .arr (tag :: rest) => do return (← Json.text tag, .arr rest)
  | _ => .error .malformed

/-- Nothing but a tag: further fields do no harm, and further items do. -/
def Json.tagAlone : Decoder Unit
  | .arr (_ :: _) => .error .malformed
  | _ => .ok ()

namespace Json

variable {α β γ : Type}

def fromTag (a : α) : Decoder α := fun j => (tagAlone j).map fun _ => a

def fromOne (name : String) (decode : Decoder β) (make : β → α) : Decoder α := fun j =>
  (one name decode j).map make

def fromTwo (first : String) (decodeFirst : Decoder β) (second : String)
    (decodeSecond : Decoder γ) (make : β → γ → α) : Decoder α := fun j =>
  (two first decodeFirst second decodeSecond j).map fun p => make p.1 p.2

/-- A value of one of several variants, each of which has a decoder for what is there beside the
tag. -/
def union (field : String) (variants : List (String × Decoder α)) : Decoder α := fun j => do
  let (tag, rest) ← tagged field j
  let decode ← required ((variants.map fun v => (snakeCase v.1, v.2)).lookup tag)
  decode rest

end Json

namespace Call

def variant : Call → String
  | bind .. => "Bind"
  | bindContext .. => "BindContext"
  | rebind .. => "Rebind"
  | rebindContext .. => "RebindContext"
  | resolve _ => "Resolve"
  | unbind _ => "Unbind"
  | list _ => "List"
  | newContext => "NewContext"
  | bindNewContext _ => "BindNewContext"
  | destroy => "Destroy"
  | toText _ => "ToString"
  | toName _ => "ToName"
  | resolveText _ => "ResolveStr"

/-- The fields of a call beside its tag. -/
def fields : Call → List (String × Json)
  | bind name reference | rebind name reference =>
    [("name", name.toJson), ("object", .str reference)]
  | bindContext name key | rebindContext name key =>
    [("name", name.toJson), ("context", key.toJson)]
  | resolve name | unbind name | bindNewContext name | toText name => [("name", name.toJson)]
  | list max => [("max", .int max)]
  | newContext | destroy => []
  | toName text | resolveText text => [("text", .str text)]

def toJson (c : Call) : Json := .obj (("op", .str (Json.snakeCase c.variant)) :: c.fields)

def variants : List (String × Decoder Call) :=
  [("Bind", Json.fromTwo "name" Name.ofJson "object" Json.text bind),
    ("BindContext", Json.fromTwo "name" Name.ofJson "context" ContextKey.ofJson bindContext),
    ("Rebind", Json.fromTwo "name" Name.ofJson "object" Json.text rebind),
    ("RebindContext", Json.fromTwo "name" Name.ofJson "context" ContextKey.ofJson rebindContext),
    ("Resolve", Json.fromOne "name" Name.ofJson resolve),
    ("Unbind", Json.fromOne "name" Name.ofJson unbind),
    ("List", Json.fromOne "max" Json.word list),
    ("NewContext", Json.fromTag newContext),
    ("BindNewContext", Json.fromOne "name" Name.ofJson bindNewContext),
    ("Destroy", Json.fromTag destroy),
    ("ToString", Json.fromOne "name" Name.ofJson toText),
    ("ToName", Json.fromOne "text" Json.text toName),
    ("ResolveStr", Json.fromOne "text" Json.text resolveText)]

def ofJson : Decoder Call := Json.union "op" variants

end Call

namespace Reply

def variant : Reply → String
  | finished => "Done"
  | resolved _ => "Resolved"
  | context _ => "Context"
  | listing .. => "Listing"
  | name _ => "Name"
  | text _ => "Text"

/-- The fields of a reply beside its tag. -/
def fields : Reply → List (String × Json)
  | finished => []
  | resolved target => [("target", target.toJson)]
  | context key => [("key", key.toJson)]
  | listing bindings rest =>
    [("bindings", .arr (bindings.map Binding.toJson)), ("rest", .arr (rest.map Binding.toJson))]
  | name n => [("name", n.toJson)]
  | text s => [("text", .str s)]

def toJson (r : Reply) : Json := .obj (("reply", .str (Json.snakeCase r.variant)) :: r.fields)

def variants : List (String × Decoder Reply) :=
  [("Done", Json.fromTag finished),
    ("Resolved", Json.fromOne "target" Target.ofJson resolved),
    ("Context", Json.fromOne "key" ContextKey.ofJson context),
    ("Listing", Json.fromTwo "bindings" (Json.list Binding.ofJson) "rest"
      (Json.list Binding.ofJson) listing),
    ("Name", Json.fromOne "name" Name.ofJson name),
    ("Text", Json.fromOne "text" Json.text text)]

def ofJson : Decoder Reply := Json.union "reply" variants

end Reply

end Naming

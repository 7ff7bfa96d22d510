import Naming.Failure

namespace Naming

/-- What a context can be asked to do. -/
inductive Operation where
  | bind
  | bindContext
  | rebind
  | rebindContext
  | resolve
  | unbind
  | list
  | newContext
  | bindNewContext
  | destroy
  | toText
  | toName
  | resolveText
deriving DecidableEq

namespace Operation

def all : List Operation :=
  [bind, bindContext, rebind, rebindContext, resolve, unbind, list, newContext, bindNewContext,
    destroy, toText, toName, resolveText]

def name : Operation → String
  | bind => "bind"
  | bindContext => "bind_context"
  | rebind => "rebind"
  | rebindContext => "rebind_context"
  | resolve => "resolve"
  | unbind => "unbind"
  | list => "list"
  | newContext => "new_context"
  | bindNewContext => "bind_new_context"
  | destroy => "destroy"
  | toText => "to_string"
  | toName => "to_name"
  | resolveText => "resolve_str"

/-- Whether it changes the bindings of the context that it is asked of. -/
def isMutating : Operation → Bool
  | bind | bindContext | rebind | rebindContext | unbind | bindNewContext | destroy => true
  | resolve | list | newContext | toText | toName | resolveText => false

def ofName (name : String) : Except Failure Operation :=
  match all.find? (·.name = name) with
  | some operation => .ok operation
  | none => .error (.badOperation name)

end Operation

end Naming

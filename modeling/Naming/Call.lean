import Naming.Sweep

namespace Naming

/-- An operation together with its arguments. -/
inductive Call where
  | bind (name : Name) (reference : String)
  | bindContext (name : Name) (key : ContextKey)
  | rebind (name : Name) (reference : String)
  | rebindContext (name : Name) (key : ContextKey)
  | resolve (name : Name)
  | unbind (name : Name)
  | list (max : Nat)
  | newContext
  | bindNewContext (name : Name)
  | destroy
  | toText (name : Name)
  | toName (text : String)
  | resolveText (text : String)
deriving DecidableEq

def Call.operation : Call → Operation
  | bind .. => .bind
  | bindContext .. => .bindContext
  | rebind .. => .rebind
  | rebindContext .. => .rebindContext
  | resolve _ => .resolve
  | unbind _ => .unbind
  | list _ => .list
  | newContext => .newContext
  | bindNewContext _ => .bindNewContext
  | destroy => .destroy
  | toText _ => .toText
  | toName _ => .toName
  | resolveText _ => .resolveText

/-- What a call answers. A listing has its first page and then all that is left. -/
inductive Reply where
  | finished
  | resolved (target : Target)
  | context (key : ContextKey)
  | listing (bindings rest : List Binding)
  | name (name : Name)
  | text (text : String)
deriving DecidableEq

namespace Call

/-- Makes the call of the context `c`. Calls that need no bindings fail on a context without a
record all the same. -/
def run (c : Context) : Call → Request Reply
  | bind name reference => do
    c.bind name reference
    return .finished
  | bindContext name key => do
    c.bindContext name key
    return .finished
  | rebind name reference => do
    c.rebind name reference
    return .finished
  | rebindContext name key => do
    c.rebindContext name key
    return .finished
  | resolve name => return .resolved (← c.resolve name)
  | unbind name => do
    c.unbind name
    return .finished
  | list max => do
    let (bindings, more) ← c.list max
    return .listing bindings ((more.map (·.remaining)).getD [])
  | newContext => return .context (← c.newContext).key
  | bindNewContext name => return .context (← c.bindNewContext name).key
  | destroy => do
    c.destroy
    return .finished
  | toText name => do
    c.demand .toText
    return .text name.text
  | toName text => do
    c.demand .toName
    return .name (← Request.ofFault (Name.ofText text))
  | resolveText text => return .resolved (← c.resolveText text)

end Call

/-- Makes a call that was sent to a key under the name of an operation, which must be the operation
of the call. -/
def Service.handle (s : Service) (key operation : String) (call : Call) : Request Reply := do
  let operation ← Request.ofExcept (Operation.ofName operation)
  if operation ≠ call.operation then
    let reason := s!"operation {operation.name} does not match {call.operation.name} arguments"
    throw (.badOperation reason)
  Request.note ⟨.debug, .request, "Dispatching request",
    [("key", .text key), ("operation", .text operation.name)]⟩
  call.run (s.context ⟨key⟩)

end Naming

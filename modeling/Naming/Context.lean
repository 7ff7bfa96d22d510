import Naming.Binding.Cursor
import Naming.Creation
import Naming.Text.Escaped

namespace Naming

/-- A reference to a context of the service with this root. It is good for nothing but its key, and
the context need not exist. -/
structure Context where
  root : ContextKey
  key : ContextKey
deriving DecidableEq

namespace Context

def text (c : Context) : String :=
  s!"NamingContext \x7b key: ContextKey({Text.Escaped.quote c.key.text}) \x7d"

/-- The context that the first label of a name is bound to, when the name goes on after it. -/
def childIn (name : Name) (s : BindingSet) : Except Failure ContextKey :=
  match s.get? name.first.val with
  | none => .error (.notFound name)
  | some b =>
    match b.target with
    | .context key => .ok key
    | .object _ => .error (.notAContext name)

def child (c : Context) (name : Name) : Request Context := do
  let key ← Active.during c.key .resolve .existing (Active.look (childIn name))
  return { c with key := key }

def walkFrom (c : Context) (first : Label) : List Label → Request (Context × Label)
  | [] => return (c, first)
  | next :: rest => do
    let child ← c.child ⟨first, next :: rest⟩
    child.walkFrom next rest

/-- The context that all labels but the last lead to, with the last label. No context is active
while the next is looked up. -/
def walk (c : Context) (name : Name) : Request (Context × Label) := c.walkFrom name.first name.rest

/-- What the last label of a name is bound to. -/
def targetIn (last : Label) (s : BindingSet) : Except Failure Target :=
  match s.get? last.val with
  | none => .error (.notFound (.single last))
  | some b => .ok b.target

def resolveLast (c : Context) (last : Label) : Request Target :=
  Active.during c.key .resolve .existing (Active.look (targetIn last))

def resolve (c : Context) (name : Name) : Request Target := do
  let (parent, last) ← c.walk name
  parent.resolveLast last

/-- The context that a name is bound to. -/
def resolveContext (c : Context) (name : Name) : Request Context := do
  match ← c.resolve name with
  | .context key => return { c with key := key }
  | .object _ => throw (.notAContext name)

def resolveText (c : Context) (text : String) : Request Target := do
  c.resolve (← Request.ofFault (Name.ofText text))

/-- Whether a name may be taken already. -/
inductive Placement where
  | fresh
  | anew
deriving DecidableEq

/-- A context may be bound only while it has a record. A context that binds itself has one. -/
def demandRecord (target : Target) : Active.Use Unit := do
  match target with
  | .object _ => pure ()
  | .context key =>
    if key = (← get).key then pure ()
    else if ← Active.ofStorage (← Active.perform (.contains key)) then pure ()
    else throw (.noContext key)

def Placement.change (placement : Placement) (b : Binding) (s : BindingSet) :
    Except Failure (Unit × BindingSet) :=
  match placement with
  | fresh => (s.insert b).map ((), ·)
  | anew => (s.replace b).map fun (_, s) => ((), s)

def bindLast (c : Context) (last : Label) (target : Target) (placement : Placement)
    (operation : Operation) : Request Unit :=
  Request.gated .shared do
    Active.during c.key operation .existing do
      demandRecord target
      Active.edit (placement.change ⟨last.val, target⟩)
      Active.commit
    match target with
    | .context key => Request.act (.clearUnbound key)
    | .object _ => pure ()

def bindTarget (c : Context) (name : Name) (target : Target) (placement : Placement)
    (operation : Operation) : Request Unit := do
  let (parent, last) ← c.walk name
  parent.bindLast last target placement operation

/-- Binds a free name to an object. -/
def bind (c : Context) (name : Name) (reference : String) : Request Unit :=
  c.bindTarget name (.object reference) .fresh .bind

/-- Binds a free name to a context. -/
def bindContext (c : Context) (name : Name) (key : ContextKey) : Request Unit :=
  c.bindTarget name (.context key) .fresh .bindContext

/-- Binds a name to an object, also if it is bound to another object. -/
def rebind (c : Context) (name : Name) (reference : String) : Request Unit :=
  c.bindTarget name (.object reference) .anew .rebind

/-- Binds a name to a context, also if it is bound to another context. -/
def rebindContext (c : Context) (name : Name) (key : ContextKey) : Request Unit :=
  c.bindTarget name (.context key) .anew .rebindContext

def unbind (c : Context) (name : Name) : Request Unit := do
  let (parent, last) ← c.walk name
  Active.during parent.key .unbind .existing do
    Active.look fun s =>
      if (s.get? last.val).isSome then .ok () else .error (.notFound (.single last))
    Active.edit fun s => .ok ((), (s.remove last.val).2)
    Active.commit

/-- The first bindings, at most this many, and a cursor over the others if there are any. -/
def list (c : Context) (max : Nat) : Request (List Binding × Option Cursor) :=
  Active.during c.key .list .existing <| Active.look fun s =>
    let (page, rest) := s.page max
    .ok (page, if rest.isEmpty then none else some ⟨rest⟩)

/-- Fails unless the context exists. -/
def demand (c : Context) (operation : Operation) : Request Unit :=
  Active.during c.key operation .existing (Active.look fun _ => .ok ())

/-- Makes a context that is bound nowhere yet. -/
def newContext (c : Context) : Request Context := do
  c.demand .newContext
  return { c with key := ← createUnbound }

/-- Removes an empty context other than the root. -/
def destroy (c : Context) : Request Unit := do
  if c.key = c.root then throw (.badOperation "the root context cannot be destroyed")
  Active.during c.key .destroy .existing do
    Active.look fun s => if s.isEmpty then .ok () else .error (.notEmpty c.key)
    Active.remove
  Request.act (.clearUnbound c.key)

/-- Makes a context and binds it to a free name. If it cannot be bound, it is destroyed again. -/
def bindNewContext (c : Context) (name : Name) : Request Context := do
  let (parent, last) ← c.walk name
  Request.gated .shared do
    let created : Context := { c with key := ← createContext }
    match ← (parent.bindLast last (.context created.key) .fresh .bindNewContext).attempt with
    | .ok () => return created
    | .error failure =>
      Request.note ⟨.warn, .context, "Bind of new context failed; destroying it",
        [("key", .text created.key.text), ("name", .text (Name.single last).text),
          ("error", .text failure.message)]⟩
      match ← created.destroy.attempt with
      | .ok () => pure ()
      | .error cleanup =>
        Request.note ⟨.warn, .context, "Could not destroy unbound context",
          [("key", .text created.key.text), ("error", .text cleanup.message)]⟩
      throw failure

end Context

end Naming

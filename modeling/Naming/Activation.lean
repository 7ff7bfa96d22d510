import Naming.Job

namespace Naming

/-- What happens when a context that is to be activated has no record. -/
inductive Intent where
  | existing
  | create
deriving DecidableEq

/-- A context in memory for the time of one request, which holds the lock of its key. -/
structure Active where
  key : ContextKey
  operation : Operation
  bindings : BindingSet
  dirty : Bool
  removed : Bool
  lock : Nat
  access : Access

namespace Active

/-- Requests that change a context, or make one, have it for themselves. -/
def accessFor (operation : Operation) (intent : Intent) : Access :=
  if operation.isMutating || intent = .create then .exclusive else .shared

def event (message : String) (key : ContextKey) (operation : Operation)
    (more : List (String × Log.Value)) : Log.Event :=
  ⟨.debug, .activation, message,
    [("key", .text key.text), ("operation", .text operation.name)] ++ more⟩

/-- The bindings to work on, and whether they still have to be saved. -/
def find (key : ContextKey) (intent : Intent) : Request (BindingSet × Bool) := do
  match ← (Request.act (.resident key) : Request (Option BindingSet)) with
  | some bindings => return (bindings, false)
  | none =>
    match ← Request.ofStorage (Job.act (.load key)), intent with
    | some bindings, _ => return (bindings, false)
    | none, .create => return (.empty, true)
    | none, .existing => throw (.noContext key)

/-- Locks the key and brings its bindings into memory. A failure gives the lock back. -/
def acquire (key : ContextKey) (operation : Operation) (intent : Intent) : Request Active :=
  ExceptT.mk do
    let access := accessFor operation intent
    let lock ← Job.act (.referLock key)
    Job.act (.enterLock lock access)
    match ← (find key intent).run with
    | .error failure =>
      Job.act (.leaveLock lock access)
      Job.act (.releaseIdle key)
      return .error failure
    | .ok (bindings, dirty) =>
      Job.act (.note (event "Activated context" key operation
        [("bindings", .number bindings.size)]))
      return .ok ⟨key, operation, bindings, dirty, false, lock, access⟩

/-- Ends the request. What was neither changed nor removed may stay in memory. -/
def release (c : Active) : Job Unit := do
  Job.act (.settle c.key (if c.dirty || c.removed then none else some c.bindings))
  Job.act (.note (event "Released context" c.key c.operation []))
  Job.act (.leaveLock c.lock c.access)
  Job.act (.releaseIdle c.key)

/-- A use of an active context fails or has a result, and either way leaves the context as it is
then, so that it can be released. -/
abbrev Use (α : Type) := ExceptT Failure (StateT Active Job) α

def perform (action : Action) : Use action.Result :=
  ExceptT.lift (StateT.lift (Job.act action))

/-- A step of the store whose failure ends the use. -/
def ofStorage {α : Type} (result : Except StorageFailure α) : Use α :=
  match result with
  | .ok a => pure a
  | .error failure => throw (.ofStorage failure)

/-- Fails unless the request has the context for itself. -/
def demandExclusive (verb : String) : Use Unit := do
  let c ← get
  match c.access with
  | .exclusive => pure ()
  | .shared => throw (.badOperation s!"{c.operation.name} cannot {verb} context {c.key.text}")

/-- Changes the bindings in memory. From then on they count as changed, also when the change itself
is refused. -/
def edit {α : Type} (change : BindingSet → Except Failure (α × BindingSet)) : Use α := do
  demandExclusive "modify"
  modify fun c => { c with dirty := true }
  match change (← get).bindings with
  | .error failure => throw failure
  | .ok (a, bindings) =>
    modify fun c => { c with bindings := bindings }
    return a

/-- Saves the bindings. -/
def commit : Use Unit := do
  demandExclusive "commit"
  let c ← get
  ofStorage (← perform (.save c.key c.bindings))
  modify fun c => { c with dirty := false }

/-- Removes the record. -/
def remove : Use Unit := do
  demandExclusive "remove"
  let c ← get
  let _ ← ofStorage (← perform (.remove c.key))
  modify fun c => { c with removed := true }

/-- Only looks at the context. -/
def look {α : Type} (view : BindingSet → Except Failure α) : Use α := do
  match view (← get).bindings with
  | .error failure => throw failure
  | .ok a => return a

/-- Activates a context, uses it and releases it, whatever comes of the use. -/
def during {α : Type} (key : ContextKey) (operation : Operation) (intent : Intent)
    (use : Use α) : Request α :=
  ExceptT.mk do
    match ← (acquire key operation intent).run with
    | .error failure => return .error failure
    | .ok c =>
      let (result, c) ← use.run.run c
      c.release
      return result

end Active

end Naming

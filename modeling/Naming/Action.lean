import Naming.Operation
import Naming.Server

namespace Naming

/-- The steps that requests are made of. Each happens at once, and requests of several clients
take turns between steps. -/
inductive Action where
  | referLock (key : ContextKey)
  | enterLock (lock : Nat) (access : Access)
  | leaveLock (lock : Nat) (access : Access)
  | releaseIdle (key : ContextKey)
  | resident (key : ContextKey)
  | settle (key : ContextKey) (kept : Option BindingSet)
  | load (key : ContextKey)
  | save (key : ContextKey) (bindings : BindingSet)
  | contains (key : ContextKey)
  | remove (key : ContextKey)
  | allocate
  | keys
  | root
  | setRoot (key : ContextKey)
  | enterGate (access : Access)
  | leaveGate (access : Access)
  | markUnbound (key : ContextKey)
  | clearUnbound (key : ContextKey)
  | isUnbound (key : ContextKey)
  | census
  | note (event : Log.Event)

namespace Action

/-- What a step answers. -/
@[reducible] def Result : Action → Type
  | referLock _ => Nat
  | enterLock _ _ | leaveLock _ _ | releaseIdle _ | settle _ _ => Unit
  | resident _ => Option BindingSet
  | load _ => Except StorageFailure (Option BindingSet)
  | save _ _ | setRoot _ => Except StorageFailure Unit
  | contains _ | remove _ => Except StorageFailure Bool
  | allocate => Except StorageFailure ContextKey
  | keys => Except StorageFailure (List ContextKey)
  | root => Except StorageFailure (Option ContextKey)
  | enterGate _ | leaveGate _ | markUnbound _ | clearUnbound _ | note _ => Unit
  | isUnbound _ => Bool
  | census => Nat

/-- A saved record and an allocated key are put on record by the store itself. -/
def savedEvent (key : ContextKey) (bindings : BindingSet) : Log.Event :=
  ⟨.debug, .disk, "Saved context record",
    [("key", .text key.text), ("bindings", .number bindings.size)]⟩

def allocatedEvent (key : ContextKey) : Log.Event :=
  ⟨.debug, .disk, "Allocated context key", [("key", .text key.text)]⟩

/-- Takes a step, unless it has to wait for a lock or for the gate. -/
def perform? : (a : Action) → Server → Option (a.Result × Server)
  | referLock key, s =>
    let (id, locks) := s.memory.locks.refer key
    some (id, { s with memory.locks := locks })
  | enterLock id access, s =>
    (s.memory.locks.enter? id access).map fun locks => ((), { s with memory.locks := locks })
  | leaveLock id access, s => some ((), { s with memory.locks := s.memory.locks.leave id access })
  | releaseIdle key, s => some ((), { s with memory.locks := s.memory.locks.releaseIdle key })
  | resident key, s => some (s.memory.resident.get? key, s)
  | settle key kept, s =>
    let resident :=
      match s.memory.retention, kept with
      | .cache capacity, some bindings => s.memory.resident.insert capacity key bindings
      | _, _ => s.memory.resident.remove key
    some ((), { s with memory.resident := resident })
  | load key, s =>
    let (result, store) := s.store.load key
    some (result, { s with store := store })
  | save key bindings, s =>
    let (result, store) := s.store.save key bindings
    match result with
    | .error failure => some (.error failure, { s with store := store })
    | .ok () => some (.ok (), { s with store := store }.note (savedEvent key bindings))
  | contains key, s =>
    let (result, store) := s.store.contains key
    some (result, { s with store := store })
  | remove key, s =>
    let (result, store) := s.store.remove key
    some (result, { s with store := store })
  | allocate, s =>
    let (result, store) := s.store.allocate
    match result with
    | .error failure => some (.error failure, { s with store := store })
    | .ok key => some (.ok key, { s with store := store }.note (allocatedEvent key))
  | keys, s =>
    let (result, store) := s.store.keys
    some (result, { s with store := store })
  | root, s => some (s.store.disk.root?, s)
  | setRoot key, s =>
    let (result, store) := s.store.setRoot key
    some (result, { s with store := store })
  | enterGate access, s =>
    (s.memory.gate.enter? access).map fun gate => ((), { s with memory.gate := gate })
  | leaveGate access, s => some ((), { s with memory.gate := s.memory.gate.leave access })
  | markUnbound key, s =>
    some ((), { s with memory.unbound := key :: s.memory.unbound.filter (· ≠ key) })
  | clearUnbound key, s =>
    some ((), { s with memory.unbound := s.memory.unbound.filter (· ≠ key) })
  | isUnbound key, s => some (s.memory.unbound.contains key, s)
  | census, s => some (s.census, s)
  | note event, s => some ((), s.note event)

end Action

end Naming

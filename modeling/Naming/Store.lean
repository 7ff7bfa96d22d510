import Naming.Disk

namespace Naming

/-- The calls of a store that can fail. -/
inductive StoreCall where
  | load
  | save
  | contains
  | remove
  | allocate
  | keys
  | setRoot
deriving DecidableEq

/-- How often each call was made. -/
structure CallCount where
  load : Nat := 0
  save : Nat := 0
  contains : Nat := 0
  remove : Nat := 0
  allocate : Nat := 0
  keys : Nat := 0
  setRoot : Nat := 0

namespace CallCount

def get (c : CallCount) : StoreCall → Nat
  | .load => c.load
  | .save => c.save
  | .contains => c.contains
  | .remove => c.remove
  | .allocate => c.allocate
  | .keys => c.keys
  | .setRoot => c.setRoot

def tick (c : CallCount) : StoreCall → CallCount
  | .load => { c with load := c.load + 1 }
  | .save => { c with save := c.save + 1 }
  | .contains => { c with contains := c.contains + 1 }
  | .remove => { c with remove := c.remove + 1 }
  | .allocate => { c with allocate := c.allocate + 1 }
  | .keys => { c with keys := c.keys + 1 }
  | .setRoot => { c with setRoot := c.setRoot + 1 }

end CallCount

/-- Which calls fail, told by the kind of call and by how many of that kind came before it. -/
structure Faults where
  fails : StoreCall → Nat → Bool := fun _ _ => false
  made : CallCount := {}

/-- A disk that may refuse calls. A refused call writes nothing. -/
structure Store where
  disk : Disk := {}
  faults : Faults := {}

namespace Store

/-- What a refused call reports. -/
def refusal : StorageFailure := .io "injected failure"

/-- Makes a call, which gives its result and changes the disk unless it is refused. -/
def call {α : Type} (s : Store) (kind : StoreCall)
    (body : Disk → Except StorageFailure (α × Disk)) : Except StorageFailure α × Store :=
  let faults := { s.faults with made := s.faults.made.tick kind }
  if s.faults.fails kind (s.faults.made.get kind) then (.error refusal, ⟨s.disk, faults⟩)
  else
    match body s.disk with
    | .error failure => (.error failure, ⟨s.disk, faults⟩)
    | .ok (result, disk) => (.ok result, ⟨disk, faults⟩)

def load (s : Store) (key : ContextKey) : Except StorageFailure (Option BindingSet) × Store :=
  s.call .load fun d => (d.load key).map (·, d)

def save (s : Store) (key : ContextKey) (bindings : BindingSet) :
    Except StorageFailure Unit × Store :=
  s.call .save fun d => (d.save key bindings).map ((), ·)

def contains (s : Store) (key : ContextKey) : Except StorageFailure Bool × Store :=
  s.call .contains fun d => .ok (d.contains key, d)

/-- Whether there was a record to remove. -/
def remove (s : Store) (key : ContextKey) : Except StorageFailure Bool × Store :=
  s.call .remove fun d => .ok (d.contains key, d.remove key)

def allocate (s : Store) : Except StorageFailure ContextKey × Store :=
  s.call .allocate Disk.allocate

def keys (s : Store) : Except StorageFailure (List ContextKey) × Store :=
  s.call .keys fun d => d.keys.map (·, d)

def setRoot (s : Store) (key : ContextKey) : Except StorageFailure Unit × Store :=
  s.call .setRoot fun d => .ok ((), d.setRoot key)

end Store

end Naming

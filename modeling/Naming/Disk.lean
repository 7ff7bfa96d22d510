import Naming.Disk.Counter
import Naming.Record

namespace Naming

/-- What survives a restart: the records of the contexts, and two marks beside them. -/
structure Disk where
  contexts : Tree := {}
  marks : Tree := {}

namespace Disk

def counterPlace : Bytes := Bytes.ofText "next_key_index"

def rootPlace : Bytes := Bytes.ofText "root_key"

def place (key : ContextKey) : Bytes := Bytes.ofText key.text

/-- The bindings in the bytes stored under a key: these must hold a record of the current version
that carries this very key. -/
def readRecord (key : ContextKey) (raw : Bytes) : Except StorageFailure BindingSet :=
  match Record.decode raw with
  | .error fault => .error (.corrupt key.text fault.message)
  | .ok record =>
    if record.version ≠ Record.currentVersion then
      .error (.corrupt key.text s!"unsupported record version {record.version}")
    else if record.key ≠ key then
      .error (.corrupt key.text s!"record claims key {record.key.text}")
    else .ok record.bindings

def load (d : Disk) (key : ContextKey) : Except StorageFailure (Option BindingSet) :=
  match d.contexts.get? (place key) with
  | none => .ok none
  | some raw => (readRecord key raw).map some

/-- What is reported of a record that cannot be written. -/
def oversized (key : ContextKey) : StorageFailure :=
  .io s!"Failed to serialize context record {key.text}: the size limit has been reached"

/-- Writes the record of a context, unless it has a length that no record can hold. -/
def save (d : Disk) (key : ContextKey) (bindings : BindingSet) : Except StorageFailure Disk :=
  let record : Record := ⟨Record.currentVersion, key, bindings⟩
  if record.fits then .ok { d with contexts := d.contexts.insert (place key) record.encode }
  else .error (oversized key)

def contains (d : Disk) (key : ContextKey) : Bool := d.contexts.contains (place key)

def remove (d : Disk) (key : ContextKey) : Disk :=
  { d with contexts := d.contexts.erase (place key) }

/-- A key that was never handed out before. -/
def allocate (d : Disk) : Except StorageFailure (ContextKey × Disk) := do
  let seen := d.marks.get? counterPlace
  let (index, next) ← Counter.advance seen
  match Counter.swap d.marks counterPlace seen next with
  | some marks => return (.ofIndex index, { d with marks := marks })
  | none => throw .exhausted

/-- How many keys were handed out so far. -/
def highWaterMark (d : Disk) : Except StorageFailure Nat :=
  Counter.value (d.marks.get? counterPlace)

def root? (d : Disk) : Except StorageFailure (Option ContextKey) :=
  match d.marks.get? rootPlace with
  | none => .ok none
  | some raw =>
    match Bytes.text raw with
    | .ok key => .ok (some ⟨key⟩)
    | .error fault => .error (.corrupt "root marker" fault.message)

def setRoot (d : Disk) (key : ContextKey) : Disk :=
  { d with marks := d.marks.insert rootPlace (place key) }

def readKeys : List Bytes → Except StorageFailure (List ContextKey)
  | [] => .ok []
  | raw :: rest =>
    match Bytes.text raw with
    | .ok key => (readKeys rest).map (⟨key⟩ :: ·)
    | .error fault => .error (.corrupt "context key" fault.message)

/-- The keys of all records, in the order of their bytes. -/
def keys (d : Disk) : Except StorageFailure (List ContextKey) := readKeys d.contexts.keys

/-- How often the records that can be read lead to a context. -/
def linkCount (d : Disk) : Nat :=
  (d.contexts.entries.map fun (_, raw) =>
    match Record.decode raw with
    | .ok record => record.bindings.contexts.length
    | .error _ => 0).foldr Nat.add 0

end Disk

end Naming

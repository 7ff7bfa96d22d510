import Naming.Disk.Tree
import Naming.Failure

namespace Naming

namespace Counter

/-- The counter of the keys that were handed out has eight bytes, so it stays below this number. -/
def limit : Nat := Nat.pow 2 64

/-- The number a stored counter holds; a counter that was never stored is zero. -/
def value : Option Bytes → Except StorageFailure Nat
  | none => .ok 0
  | some raw =>
    if raw.length = 8 then .ok (Bytes.ofBigEndian raw)
    else .error (.corrupt "allocator counter" s!"expected 8 bytes, got {raw.length}")

/-- The number that a counter hands out next, and the counter once it has. -/
def advance (raw : Option Bytes) : Except StorageFailure (Nat × Bytes) := do
  let index ← value raw
  if index + 1 < limit then return (index, Bytes.bigEndian 8 (index + 1))
  else throw .exhausted

/-- Stores `next` if the counter is still as it was `seen`. -/
def swap (t : Tree) (place : Bytes) (seen : Option Bytes) (next : Bytes) : Option Tree :=
  if t.get? place = seen then some (t.insert place next) else none

end Counter

end Naming

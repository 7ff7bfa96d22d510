import Naming.Bytes

namespace Naming

/-- A map from bytes to bytes whose entries stand in the order of their keys. -/
structure Tree where
  entries : List (Bytes × Bytes) := []

namespace Tree

def get? (t : Tree) (key : Bytes) : Option Bytes := t.entries.lookup key

def contains (t : Tree) (key : Bytes) : Bool := (t.get? key).isSome

def insertInto (key value : Bytes) : List (Bytes × Bytes) → List (Bytes × Bytes)
  | [] => [(key, value)]
  | (k, v) :: rest =>
    if k = key then (key, value) :: rest
    else if Bytes.le key k then (key, value) :: (k, v) :: rest
    else (k, v) :: insertInto key value rest

def insert (t : Tree) (key value : Bytes) : Tree := ⟨insertInto key value t.entries⟩

def erase (t : Tree) (key : Bytes) : Tree := ⟨t.entries.filter (·.1 ≠ key)⟩

def keys (t : Tree) : List Bytes := t.entries.map (·.1)

end Tree

end Naming

import Naming.Binding.Set

namespace Naming

/-- How long a context stays in memory once a request is done with it. -/
inductive Retention where
  | none
  | cache (capacity : Nat)
deriving DecidableEq

def Retention.text : Retention → String
  | none => "None"
  | cache capacity => s!"Cache \x7b capacity: {capacity} \x7d"

/-- The contexts kept in memory, with the queue of their keys from the oldest on. -/
structure Resident where
  entries : List (ContextKey × BindingSet) := []
  order : List ContextKey := []

namespace Resident

def get? (r : Resident) (key : ContextKey) : Option BindingSet := r.entries.lookup key

def size (r : Resident) : Nat := r.entries.length

/-- Lets go of the oldest contexts until no more than `capacity` are left. -/
def evict (capacity : Nat) (entries : List (ContextKey × BindingSet)) :
    List ContextKey → Resident
  | [] => ⟨entries, []⟩
  | oldest :: order =>
    if capacity < entries.length then
      evict capacity (entries.filter (·.1 ≠ oldest)) order
    else ⟨entries, oldest :: order⟩

/-- A context that is already kept gets its new bindings and keeps its place in the queue. -/
def insert (r : Resident) (capacity : Nat) (key : ContextKey) (bindings : BindingSet) :
    Resident :=
  let order := if (r.get? key).isSome then r.order else r.order ++ [key]
  evict capacity ((key, bindings) :: r.entries.filter (·.1 ≠ key)) order

def remove (r : Resident) (key : ContextKey) : Resident :=
  if (r.get? key).isSome then ⟨r.entries.filter (·.1 ≠ key), r.order.filter (· ≠ key)⟩ else r

/-- How often the contexts kept lead to a context. -/
def linkCount (r : Resident) : Nat := (r.entries.map (·.2.contexts.length)).foldr Nat.add 0

end Resident

end Naming

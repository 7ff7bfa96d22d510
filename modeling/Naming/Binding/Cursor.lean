import Naming.Binding

namespace Naming

/-- The bindings that did not fit on the first page of a listing, as they were at that time. -/
structure Cursor where
  remaining : List Binding

namespace Cursor

def next (c : Cursor) : Option Binding × Cursor := (c.remaining.head?, ⟨c.remaining.tail⟩)

/-- The next bindings, at most this many. -/
def take (c : Cursor) (count : Nat) : List Binding × Cursor :=
  (c.remaining.take count, ⟨c.remaining.drop count⟩)

def size (c : Cursor) : Nat := c.remaining.length

def isExhausted (c : Cursor) : Bool := c.remaining.isEmpty

end Cursor

end Naming

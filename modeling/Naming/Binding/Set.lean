import Naming.Binding
import Naming.Failure

namespace Naming

/-- The bindings of one context in the order in which they were made, with the position of each
name beside them. -/
structure BindingSet where
  entries : List Binding := []
  index : List (Component × Nat) := []

namespace BindingSet

def empty : BindingSet := {}

def size (s : BindingSet) : Nat := s.entries.length

def isEmpty (s : BindingSet) : Bool := s.entries.isEmpty

def position? (s : BindingSet) (name : Component) : Option Nat := s.index.lookup name

def get? (s : BindingSet) (name : Component) : Option Binding :=
  match s.position? name with
  | none => none
  | some position => s.entries[position]?

/-- A new name goes last; a name that is taken is refused. -/
def insert (s : BindingSet) (b : Binding) : Except Failure BindingSet :=
  match s.position? b.name with
  | some _ => .error (.alreadyBound b.name)
  | none => .ok ⟨s.entries ++ [b], (b.name, s.entries.length) :: s.index⟩

/-- A name keeps its position, and its type, when it is bound anew; the old binding is returned. -/
def replace (s : BindingSet) (b : Binding) : Except Failure (Option Binding × BindingSet) :=
  match s.position? b.name with
  | none => (s.insert b).map (none, ·)
  | some position =>
    match s.entries[position]? with
    | none => .ok (none, s)
    | some old =>
      match old.type, b.type with
      | .object, .context =>
        match Name.ofComponents [b.name] with
        | .ok name => .error (.notAContext name)
        | .error fault => .error (.ofFault fault)
      | .context, .object => .error (.notAnObject b.name)
      | _, _ => .ok (some old, { s with entries := s.entries.set position b })

/-- The positions after the entry that is gone move down by one. -/
def shift (gone : Nat) (index : List (Component × Nat)) : List (Component × Nat) :=
  index.map fun (name, position) => (name, if gone < position then position - 1 else position)

def remove (s : BindingSet) (name : Component) : Option Binding × BindingSet :=
  match s.position? name with
  | none => (none, s)
  | some position =>
    (s.entries[position]?,
      ⟨s.entries.eraseIdx position, shift position (s.index.filter (·.1 ≠ name))⟩)

/-- The first bindings, at most this many, and those that are left. -/
def page (s : BindingSet) (max : Nat) : List Binding × List Binding :=
  (s.entries.take max, s.entries.drop max)

/-- Of two entries with one name the index finds the later. -/
def ofList (entries : List Binding) : BindingSet :=
  ⟨entries, (entries.zipIdx.map fun (b, position) => (b.name, position)).reverse⟩

/-- The contexts that these bindings lead to. -/
def contexts (s : BindingSet) : List ContextKey := s.entries.filterMap (·.target.context?)

end BindingSet

end Naming

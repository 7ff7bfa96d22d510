namespace Naming

/-- One edge of the name space: an identifier and a kind, either of which may be empty. -/
structure Component where
  id : String
  kind : String
deriving DecidableEq, Inhabited

namespace Component

/-- A component names something when its identifier or its kind says something. -/
def isNamed (c : Component) : Bool := !(c.id.isEmpty && c.kind.isEmpty)

def ofId (id : String) : Component := ⟨id, ""⟩

/-- Components are ordered by identifier and then by kind, both by code point. -/
def le (a b : Component) : Bool :=
  if a.id = b.id then decide (a.kind ≤ b.kind) else decide (a.id < b.id)

end Component

/-- A component that names something, hence one that may stand in a name. -/
abbrev Label := { c : Component // c.isNamed = true }

def Label.ofComponent? (c : Component) : Option Label :=
  if h : c.isNamed = true then some ⟨c, h⟩ else none

/-- A name is one label or more; the first is looked up first. -/
structure Name where
  first : Label
  rest : List Label
deriving DecidableEq

namespace Name

def single (label : Label) : Name := ⟨label, []⟩

def labels (n : Name) : List Label := n.first :: n.rest

def components (n : Name) : List Component := n.labels.map Subtype.val

def length (n : Name) : Nat := n.rest.length + 1

def isSingle (n : Name) : Bool := n.rest.isEmpty

def last (n : Name) : Label := n.rest.getLastD n.first

/-- The names left after one label, after two, and so on. -/
def tails : Name → List Name
  | ⟨_, rest⟩ => go rest
where
  go : List Label → List Name
    | [] => []
    | next :: rest => ⟨next, rest⟩ :: go rest

def append (p q : Name) : Name := ⟨p.first, p.rest ++ q.labels⟩

instance : Append Name := ⟨append⟩

/-- Why a list of components or a text is no name. -/
inductive Fault where
  | noComponents
  | unnamed (position : Nat)
  | emptyText
  | danglingEscape (text : String)
  | secondKind (text : String)
  | emptyComponent (text : String)
deriving DecidableEq

def Fault.message : Fault → String
  | noComponents => "name has no components"
  | unnamed position => s!"component {position} has neither id nor kind"
  | emptyText => "empty name string"
  | danglingEscape text => s!"dangling escape in '{text}'"
  | secondKind text => s!"more than one unescaped '.' in a component of '{text}'"
  | emptyComponent text => s!"empty component in '{text}'"

def labelsFrom (position : Nat) : List Component → Except Fault (List Label)
  | [] => .ok []
  | c :: rest =>
    if h : c.isNamed = true then
      (labelsFrom (position + 1) rest).map (⟨c, h⟩ :: ·)
    else .error (.unnamed position)

/-- The name with these components; the first component that names nothing is reported. -/
def ofComponents (components : List Component) : Except Fault Name :=
  match labelsFrom 0 components with
  | .error fault => .error fault
  | .ok [] => .error .noComponents
  | .ok (first :: rest) => .ok ⟨first, rest⟩

def ofIds (ids : List String) : Except Fault Name :=
  ofComponents (ids.map Component.ofId)

end Name

end Naming

import Naming.Key

namespace Naming

inductive Access where
  | shared
  | exclusive
deriving DecidableEq

/-- One lock, with the references to it that are held outside the table of locks. A guard holds a
reference too. -/
structure Lock where
  id : Nat
  references : Nat := 0
  readers : Nat := 0
  writer : Bool := false

namespace Lock

def isFree (l : Lock) : Access → Bool
  | .shared => !l.writer
  | .exclusive => !l.writer && l.readers == 0

def enter (l : Lock) : Access → Lock
  | .shared => { l with readers := l.readers + 1 }
  | .exclusive => { l with writer := true }

/-- A guard gives its reference back with its access. -/
def leave (l : Lock) : Access → Lock
  | .shared => { l with readers := l.readers - 1, references := l.references - 1 }
  | .exclusive => { l with writer := false, references := l.references - 1 }

end Lock

/-- The locks of the keys in use. A lock is made when its key is first asked for, and the table
knows it by its number. -/
structure LockTable where
  table : List (ContextKey × Nat) := []
  locks : List Lock := []
  fresh : Nat := 0

namespace LockTable

def find? (t : LockTable) (id : Nat) : Option Lock := t.locks.find? (·.id = id)

def update (t : LockTable) (id : Nat) (change : Lock → Lock) : LockTable :=
  { t with locks := t.locks.map fun l => if l.id = id then change l else l }

/-- Takes a reference to the lock of a key. -/
def refer (t : LockTable) (key : ContextKey) : Nat × LockTable :=
  match t.table.lookup key with
  | some id => (id, t.update id fun l => { l with references := l.references + 1 })
  | none =>
    (t.fresh,
      { table := (key, t.fresh) :: t.table
        locks := { id := t.fresh, references := 1 } :: t.locks
        fresh := t.fresh + 1 })

/-- Turns a reference into a guard, unless the lock is held in the way. -/
def enter? (t : LockTable) (id : Nat) (access : Access) : Option LockTable :=
  match t.find? id with
  | none => none
  | some l => if l.isFree access then some (t.update id (·.enter access)) else none

def leave (t : LockTable) (id : Nat) (access : Access) : LockTable :=
  t.update id (·.leave access)

def forget (t : LockTable) (id : Nat) : LockTable :=
  t.update id fun l => { l with references := l.references - 1 }

/-- Drops the lock of a key when only the table still refers to it. -/
def releaseIdle (t : LockTable) (key : ContextKey) : LockTable :=
  match t.table.lookup key with
  | none => t
  | some id =>
    match t.find? id with
    | none => t
    | some l =>
      if l.references = 0 then
        { t with
          table := t.table.filter (·.1 ≠ key)
          locks := t.locks.filter (·.id ≠ id) }
      else t

def tracked (t : LockTable) : Nat := t.table.length

/-- Whether a guard of this access on this key would be given at once. -/
def isFree (t : LockTable) (key : ContextKey) (access : Access) : Bool :=
  match t.table.lookup key with
  | none => true
  | some id => ((t.find? id).map (·.isFree access)).getD true

end LockTable

/-- Held shared while a context is made or bound, and exclusively by a sweep. -/
structure Gate where
  sharers : Nat := 0
  closed : Bool := false

namespace Gate

def enter? (g : Gate) : Access → Option Gate
  | .shared => if g.closed then none else some { g with sharers := g.sharers + 1 }
  | .exclusive => if g.closed || g.sharers != 0 then none else some { g with closed := true }

def leave (g : Gate) : Access → Gate
  | .shared => { g with sharers := g.sharers - 1 }
  | .exclusive => { g with closed := false }

end Gate

end Naming

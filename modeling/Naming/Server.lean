import Naming.Lock
import Naming.Log.Event
import Naming.Resident
import Naming.Store

namespace Naming

/-- What a restart loses: the locks, the contexts kept in memory, the gate, and the keys of the
contexts that were made to be bound later. -/
structure Memory where
  retention : Retention := .none
  locks : LockTable := {}
  resident : Resident := {}
  gate : Gate := {}
  unbound : List ContextKey := []

/-- All that requests read and change. Events are kept with the latest first. -/
structure Server where
  store : Store
  memory : Memory
  events : List Log.Event := []

namespace Server

def note (s : Server) (event : Log.Event) : Server := { s with events := event :: s.events }

/-- A bound on the number of contexts that can be reached from one. -/
def census (s : Server) : Nat := s.store.disk.linkCount + s.memory.resident.linkCount + 1

/-- The server after a restart on the same disk. -/
def restart (s : Server) (retention : Retention) : Server :=
  { store := s.store, memory := { retention := retention }, events := s.events }

end Server

end Naming

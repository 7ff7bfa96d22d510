import Naming.Context

namespace Naming

/-- A service that was started on a store. -/
structure Service where
  root : ContextKey
deriving DecidableEq

namespace Service

def context (s : Service) (key : ContextKey) : Context := ⟨s.root, key⟩

def rootContext (s : Service) : Context := s.context s.root

/-- Starts a service. The first start makes the root and records its key; later starts take the
root that is recorded, which must still have its record. -/
def start : Request Service := do
  match ← Request.ofStorage (Job.act .root) with
  | some key =>
    unless ← Request.ofStorage (Job.act (.contains key)) do
      throw (.rootMissing key)
    Request.note ⟨.info, .service, "Restored root naming context", [("root", .text key.text)]⟩
    return ⟨key⟩
  | none =>
    let key ← Request.ofStorage (Job.act .allocate)
    Active.during key .newContext .create Active.commit
    Request.ofStorage (Job.act (.setRoot key))
    Request.note ⟨.info, .service, "Created root naming context", [("root", .text key.text)]⟩
    return ⟨key⟩

/-- Makes a context that is bound nowhere yet. -/
def newContext (s : Service) : Request Context := do
  return s.context (← createUnbound)

/-- How many contexts are stored, reachable or not. -/
def contextCount : Request Nat := do
  return (← Request.ofStorage (Job.act .keys)).length

end Service

end Naming

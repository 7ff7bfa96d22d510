import Naming.Activation

namespace Naming

namespace Request

/-- Makes a request inside the gate and leaves the gate whatever comes of it. A sweep closes the
gate, and may be inside it only alone. -/
def gated {α : Type} (access : Access) (r : Request α) : Request α :=
  ExceptT.mk do
    Job.act (.enterGate access)
    let result ← r.run
    Job.act (.leaveGate access)
    return result

def note (event : Log.Event) : Request Unit := act (.note event)

end Request

/-- Makes an empty context under a new key. -/
def createContext : Request ContextKey :=
  Request.gated .shared do
    let key ← Request.ofStorage (Job.act .allocate)
    Active.during key .newContext .create Active.commit
    Request.note ⟨.debug, .service, "Created naming context", [("key", .text key.text)]⟩
    return key

/-- Makes a context that the caller will bind later. Sweeps spare it until it is bound or
destroyed. -/
def createUnbound : Request ContextKey :=
  Request.gated .shared do
    let key ← createContext
    Request.act (.markUnbound key)
    return key

end Naming

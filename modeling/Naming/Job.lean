import Naming.Action

namespace Naming

/-- A request on its way: it is done with an answer, or takes a step and goes on from what the
step answers. -/
inductive Job (α : Type) where
  | done (answer : α)
  | step (action : Action) (next : action.Result → Job α)

namespace Job

variable {α β : Type}

def bind (t : Job α) (f : α → Job β) : Job β :=
  match t with
  | done a => f a
  | step action next => step action fun r => (next r).bind f

instance : Monad Job where
  pure := done
  bind := bind

def act (action : Action) : Job action.Result := step action done

/-- Runs a job with no other client between its steps. There is no result when a step has to wait
for what nobody will give back. -/
def run (t : Job α) (s : Server) : Option (α × Server) :=
  match t with
  | done a => some (a, s)
  | step action next =>
    match action.perform? s with
    | none => none
    | some (r, s) => (next r).run s

end Job

/-- A job that answers with a failure or a result. -/
abbrev Request (α : Type) := ExceptT Failure Job α

namespace Request

variable {α : Type}

def act (action : Action) : Request action.Result := ExceptT.lift (Job.act action)

/-- A step of the store whose failure ends the request. -/
def ofStorage (t : Job (Except StorageFailure α)) : Request α :=
  ExceptT.mk do
    match ← t with
    | .ok a => return .ok a
    | .error failure => return .error (.ofStorage failure)

def ofExcept (e : Except Failure α) : Request α := ExceptT.mk (pure e)

def ofFault (e : Except Name.Fault α) : Request α := ofExcept (e.mapError .ofFault)

/-- The outcome of a request as an answer, whatever it is. -/
def attempt (r : Request α) : Request (Except Failure α) := ExceptT.lift r

/-- The outcome of a request that has the server for itself. -/
def serve (r : Request α) (s : Server) : Option (Except Failure α × Server) := Job.run r s

end Request

end Naming

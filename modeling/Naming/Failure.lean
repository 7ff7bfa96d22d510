import Naming.Key
import Naming.Name.Written

namespace Naming

/-- What can go wrong in the store. -/
inductive StorageFailure where
  | corrupt (key reason : String)
  | exhausted
  | io (reason : String)
deriving DecidableEq

def StorageFailure.message : StorageFailure → String
  | corrupt key reason => s!"Corrupt record for {key}: {reason}"
  | exhausted => "Context key space exhausted"
  | io reason => s!"Storage I/O error: {reason}"

/-- What can go wrong in the naming service. -/
inductive Failure where
  | notFound (rest : Name)
  | alreadyBound (name : Component)
  | notAContext (rest : Name)
  | notAnObject (name : Component)
  | invalidName (reason : String)
  | notEmpty (key : ContextKey)
  | noContext (key : ContextKey)
  | badOperation (reason : String)
  | rootMissing (key : ContextKey)
  | exhausted
  | storage (cause : StorageFailure)
  | configuration (reason : String)
deriving DecidableEq

namespace Failure

def message : Failure → String
  | notFound rest => s!"Name not found: {rest.text}"
  | alreadyBound name => s!"Name already bound: {name.text}"
  | notAContext rest => s!"Not a naming context: {rest.text}"
  | notAnObject name => s!"Bound to a naming context, not an object: {name.text}"
  | invalidName reason => s!"Invalid name: {reason}"
  | notEmpty key => s!"Naming context {key.text} still has bindings"
  | noContext key => s!"No naming context with key {key.text}"
  | badOperation reason => s!"Unsupported operation: {reason}"
  | rootMissing key => s!"Root context {key.text} is recorded but its record is missing"
  | exhausted => "Context key space exhausted"
  | storage cause => s!"Storage error: {cause.message}"
  | configuration reason => s!"Configuration error: {reason}"

/-- The message with the advice that a user of the command line gets below it. -/
def advice : Failure → String
  | f@(rootMissing _) =>
    f.message ++ "\nThe store is damaged; restore it from backup or point --store elsewhere."
  | f@(storage _) => f.message ++ "\nThe operation was not applied."
  | f@(notEmpty _) => f.message ++ "\nUnbind its entries first."
  | f => f.message

/-- Whether the store and not the request is to blame. -/
def isStorage : Failure → Bool
  | storage _ => true
  | _ => false

def ofFault (fault : Name.Fault) : Failure := .invalidName fault.message

/-- A used up key space is a failure of the service in its own right. -/
def ofStorage : StorageFailure → Failure
  | .exhausted => .exhausted
  | cause => .storage cause

end Failure

end Naming

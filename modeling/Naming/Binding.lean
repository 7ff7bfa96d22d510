import Naming.Key
import Naming.Name

namespace Naming

inductive BindingType where
  | object
  | context
deriving DecidableEq

def BindingType.text : BindingType → String
  | object => "n_object"
  | context => "n_context"

/-- What a name is bound to: an object kept elsewhere, known by a reference, or a context. -/
inductive Target where
  | object (reference : String)
  | context (key : ContextKey)
deriving DecidableEq

namespace Target

def type : Target → BindingType
  | object _ => .object
  | context _ => .context

def context? : Target → Option ContextKey
  | object _ => none
  | context key => some key

/-- A reference is written as it is, and a key with the mark of a context before it. -/
def text : Target → String
  | object reference => reference
  | context key => "context:" ++ key.text

/-- The target written in a text: what follows the mark of a context is a key. -/
def ofText (text : String) : Target :=
  if "context:".toList.isPrefixOf text.toList then
    .context ⟨String.ofList (text.toList.drop "context:".length)⟩
  else .object text

end Target

structure Binding where
  name : Component
  target : Target
deriving DecidableEq

def Binding.type (b : Binding) : BindingType := b.target.type

end Naming

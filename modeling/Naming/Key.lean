namespace Naming

/-- Identity of a naming context, and the key of its record in the store. -/
structure ContextKey where
  text : String
deriving DecidableEq, Inhabited

namespace ContextKey

/-- The key with this number. -/
def ofIndex (index : Nat) : ContextKey := ⟨"NC" ++ toString index⟩

end ContextKey

end Naming

import Naming.Json
import Naming.Failure

namespace Naming.Json

/-- Why a value decodes to nothing: it has not the form asked for, or it holds what is no name. -/
inductive Fault where
  | malformed
  | invalidName (fault : Name.Fault)
deriving DecidableEq

abbrev Decoder (α : Type) := Json → Except Fault α

def text : Decoder String
  | str s => .ok s
  | _ => .error .malformed

def boolean : Decoder Bool
  | bool b => .ok b
  | _ => .error .malformed

/-- An integer below `limit`. -/
def natural (limit : Nat) : Decoder Nat
  | int i => if 0 ≤ i ∧ i < limit then .ok i.toNat else .error .malformed
  | _ => .error .malformed

/-- The numbers that fit into a word of the machine. -/
def word : Decoder Nat := natural (Nat.pow 2 64)

variable {α β γ : Type}

def items (decode : Decoder α) : List Json → Except Fault (List α)
  | [] => .ok []
  | j :: rest => do
    let a ← decode j
    return a :: (← items decode rest)

def list (decode : Decoder α) : Decoder (List α)
  | arr js => items decode js
  | _ => .error .malformed

/-- A value that may be absent; null stands for absence. -/
def optional (decode : Decoder α) : Decoder (Option α)
  | null => .ok none
  | j => (decode j).map some

def entries (decode : Decoder α) : List (String × Json) → Except Fault (List (String × α))
  | [] => .ok []
  | (name, j) :: rest => do
    let a ← decode j
    return (name, a) :: (← entries decode rest)

def dictionary (decode : Decoder α) : Decoder (List (String × α))
  | obj fields => entries decode fields
  | _ => .error .malformed

/-- Decodes a field if it is there. -/
def given (decode : Decoder α) : Option Json → Except Fault (Option α)
  | none => .ok none
  | some j => (decode j).map some

def required : Option α → Except Fault α
  | some a => .ok a
  | none => .error .malformed

/-- An object with this field, or an array of this one item. -/
def one (name : String) (decode : Decoder α) : Decoder α
  | obj fields => do required (← given decode (fields.lookup name))
  | arr items => do
    let a ← required (← given decode items[0]?)
    if items.length ≤ 1 then return a else throw .malformed
  | _ => .error .malformed

/-- An object with these two fields, or an array of these two items. Fields are decoded in
alphabetical order before one is missed, and items in the order given here. -/
def two (first : String) (decodeFirst : Decoder α) (second : String) (decodeSecond : Decoder β) :
    Decoder (α × β)
  | obj fields =>
    if first ≤ second then do
      let a ← given decodeFirst (fields.lookup first)
      let b ← given decodeSecond (fields.lookup second)
      return (← required a, ← required b)
    else do
      let b ← given decodeSecond (fields.lookup second)
      let a ← given decodeFirst (fields.lookup first)
      return (← required a, ← required b)
  | arr items => do
    let a ← required (← given decodeFirst items[0]?)
    let b ← required (← given decodeSecond items[1]?)
    if items.length ≤ 2 then return (a, b) else throw .malformed
  | _ => .error .malformed

/-- One of several words: the word itself, or an object of the word alone with null. -/
def choice (words : List (String × α)) : Decoder α
  | str s => required (words.lookup s)
  | obj [(s, null)] => required (words.lookup s)
  | _ => .error .malformed

end Naming.Json

import Naming.Settings.Value
import Naming.Toml.Moment

namespace Naming.Toml

/-- What a document says about a key. -/
inductive Value where
  | text (s : String)
  | integer (i : Int)
  | decimal (x : Float)
  | flag (b : Bool)
  | moment (s : String)
  | list (items : List Value)
  | table (fields : List (String × Value))

namespace Value

instance : Inhabited Value := ⟨table []⟩

/-- The key that stands for a date or a time when it is the first one of a table. -/
def momentKey : String := "$__toml_private_datetime"

mutual

/-- The setting that a value is. Dates and times are texts. A table that begins with the key for
them is one of them, and says nothing else. -/
def toSetting? : Value → Option Settings.Value
  | text s | moment s => some (.text s)
  | integer i => some (.integer i)
  | decimal x => some (.decimal x)
  | flag b => some (.flag b)
  | list items => (itemSettings? items).map .list
  | table fields =>
    match fields with
    | (key, v) :: rest =>
      if key = momentKey then
        match v with
        | text s => (Moment.ofChars? .loose s.toList).map .text
        | moment _ | integer _ | decimal _ | flag _ | list _ | table _ => none
      else do
        return .table ((key, ← v.toSetting?) :: (← fieldSettings? rest))
    | [] => some (.table [])

def itemSettings? : List Value → Option (List Settings.Value)
  | [] => some []
  | v :: rest => do return (← v.toSetting?) :: (← itemSettings? rest)

def fieldSettings? : List (String × Value) → Option (List (String × Settings.Value))
  | [] => some []
  | (key, v) :: rest => do return (key, ← v.toSetting?) :: (← fieldSettings? rest)

end

end Value

end Naming.Toml

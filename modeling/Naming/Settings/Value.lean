import Naming.Decimal
import Naming.Text.Lower

namespace Naming.Settings

/-- What a source of settings holds under a key. Items of a list that are only there because of
items after them are nothing. -/
inductive Value where
  | nothing
  | text (s : String)
  | integer (i : Int)
  | decimal (x : Float)
  | flag (b : Bool)
  | list (items : List Value)
  | table (fields : List (String × Value))

namespace Value

instance : Inhabited Value := ⟨table []⟩

/-- A text or whatever can be written as one. -/
def text? : Value → Option String
  | text s => some s
  | integer i => some (toString i)
  | decimal x => some (Decimal.text x)
  | flag b => some (if b then "true" else "false")
  | nothing | list _ | table _ => none

def trueWords : List String := ["true", "yes", "on"]

def falseWords : List String := ["false", "no", "off"]

/-- A flag, a word for one, or a number, of which only zero means no. -/
def flag? : Value → Option Bool
  | flag b => some b
  | integer i => some (i != 0)
  | decimal x => some (x != 0)
  | text s =>
    let word := Text.Lower.ofText s
    if ("1" :: trueWords).contains word then some true
    else if ("0" :: falseWords).contains word then some false
    else none
  | nothing | list _ | table _ => none

/-- A number that fits into 64 bits. Fractions are rounded, half of one away from zero, and numbers
out of reach become the nearest in reach. -/
def natural? : Value → Option Nat
  | integer i => if 0 ≤ i then some i.toNat else none
  | decimal x => some x.round.toUInt64.toNat
  | flag b => some b.toNat
  | text s =>
    let word := Text.Lower.ofText s
    if trueWords.contains word then some 1
    else if falseWords.contains word then some 0
    else
      match Decimal.integer? s with
      | some i => if s.startsWith "-" || i < 0 || Int.pow 2 64 ≤ i then none else some i.toNat
      | none => none
  | nothing | list _ | table _ => none

/-- A word, or a table whose only key is a word. -/
def word? : Value → Option String
  | text s => some s
  | table [(key, _)] => some key
  | _ => none

end Value

end Naming.Settings

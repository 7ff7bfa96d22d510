import Naming.Settings.Value

namespace Naming.Settings

/-- A step into a value: to the field of a table, or to an item of a list. Items are counted from
the end when the number is negative. -/
inductive Step where
  | field (name : String)
  | item (index : Int)
deriving DecidableEq

/-- The way to a value, step by step from the outermost table on. -/
abbrev Path := List Step

namespace Path

def isNameChar (c : Char) : Bool := c.isAlphanum || c = ' ' || c = '_' || c = '-'

/-- A name that is not empty, and what follows it. -/
def name? (cs : List Char) : Option (String × List Char) :=
  let name := cs.takeWhile isNameChar
  if name.isEmpty then none else some (String.ofList name, cs.dropWhile isNameChar)

def skipBlanks (cs : List Char) : List Char := cs.dropWhile fun c => c = ' ' || c = '\t'

/-- A whole number of 64 bits in brackets, after the first of them, and what follows it. -/
def index? (cs : List Char) : Option (Int × List Char) := do
  let (negative, cs) := match skipBlanks cs with
    | '-' :: rest => (true, rest)
    | cs => (false, cs)
  let digits := cs.takeWhile Char.isDigit
  let n : Int := digits.foldl (fun n c => 10 * n + (c.toNat - 48)) (0 : Nat)
  let i := if negative then -n else n
  match skipBlanks (cs.dropWhile Char.isDigit) with
  | ']' :: rest =>
    if digits.isEmpty || i < -Int.pow 2 63 || Int.pow 2 63 ≤ i then none else some (i, rest)
  | _ => none

/-- The steps after the first name: names after dots, and numbers in brackets. Each of the steps,
one more than characters, reads one of them. -/
def steps? : Nat → List Char → Option Path
  | _, [] => some []
  | n + 1, '.' :: rest => do
    let (name, rest) ← name? rest
    return .field name :: (← steps? n rest)
  | n + 1, '[' :: rest => do
    let (i, rest) ← index? rest
    return .item i :: (← steps? n rest)
  | _, _ => none

/-- The path that a key spells out. A key that does not spell out any is one step as it is. -/
def ofKey (key : String) : Path :=
  let path : Option Path := do
    let (name, rest) ← name? key.toList
    return .field name :: (← steps? rest.length rest)
  path.getD [.field key]

end Path

end Naming.Settings

import Naming.Listing
import Naming.Text.Columns

namespace Naming.Frame

/-- The lines of a cell. -/
def lines : List Char → List (List Char)
  | [] => [[]]
  | c :: rest =>
    if c = '\n' then [] :: lines rest
    else
      match lines rest with
      | [] => [[c]]
      | line :: more => (c :: line) :: more

abbrev Cell := List (List Char)

def cell (s : String) : Cell := lines s.toList

def Cell.width (c : Cell) : Nat := (c.map Text.Columns.ofLine).foldl max 0

/-- A column is as wide as its widest cell. -/
def widths (columns : Nat) (rows : List (List Cell)) : List Nat :=
  (List.range columns).map fun i => (rows.map fun row => (row.getD i []).width).foldl max 0

def pad (width : Nat) (line : List Char) : List Char :=
  line ++ List.replicate (width - Text.Columns.ofLine line) ' '

/-- One line of a row: each cell between blanks, one more blank between cells, and a border on
either side. -/
def rowLine (widths : List Nat) (row : List Cell) (i : Nat) : List Char :=
  let parts := (row.zip widths).map fun (c, width) => ' ' :: pad width (c.getD i []) ++ [' ']
  '│' :: List.intercalate [' '] parts ++ ['│']

/-- A row has as many lines as its longest cell. -/
def rowLines (widths : List Nat) (row : List Cell) : List (List Char) :=
  (List.range ((row.map List.length).foldl max 0)).map (rowLine widths row)

def rule (left middle right : Char) (widths : List Nat) : List Char :=
  let inner := (widths.map (· + 2)).foldr Nat.add 0
  left :: List.replicate (inner + (widths.length - 1)) middle ++ [right]

/-- A table with a head and with borders around it and below the head. -/
def draw (head : List String) (rows : List (List String)) : String :=
  let head := head.map cell
  let rows := rows.map (·.map cell)
  let widths := widths head.length (head :: rows)
  let all := rule '┌' '─' '┐' widths :: rowLines widths head ++
    rule '╞' '═' '╡' widths :: rows.flatMap (rowLines widths) ++ [rule '└' '─' '┘' widths]
  String.ofList (List.intercalate ['\n'] all)

/-- Tables as the program draws them. A column has no greatest width here, so no text is broken. -/
instance : Drawing := ⟨draw⟩

end Naming.Frame

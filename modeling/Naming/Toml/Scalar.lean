import Naming.Decimal
import Naming.Toml.Value

namespace Naming.Toml

def isBinary (c : Char) : Bool := c = '0' || c = '1'

def isOctal (c : Char) : Bool := '0' ≤ c && c ≤ '7'

def isHex (c : Char) : Bool := c.isDigit || ('a' ≤ c && c ≤ 'f') || ('A' ≤ c && c ≤ 'F')

def digitValue (c : Char) : Nat :=
  if c.isDigit then c.toNat - 48
  else if 'a' ≤ c then c.toNat - 87
  else c.toNat - 55

/-- Digits may have single underscores between them, which count for nothing. -/
def digits? (isDigit : Char → Bool) : List Char → Option (List Char)
  | [] => none
  | [c] => if isDigit c then some [c] else none
  | c :: '_' :: rest => if isDigit c then (digits? isDigit rest).map (c :: ·) else none
  | c :: rest => if isDigit c then (digits? isDigit rest).map (c :: ·) else none

def valueIn (base : Nat) (cs : List Char) : Nat :=
  cs.foldl (fun n c => base * n + digitValue c) 0

/-- Whole numbers are those of 64 bits with a sign. -/
def bounded (i : Int) : Option Value :=
  if -Int.pow 2 63 ≤ i ∧ i < Int.pow 2 63 then some (.integer i) else none

def inBase (base : Nat) (isDigit : Char → Bool) (cs : List Char) : Option Value := do
  bounded (valueIn base (← digits? isDigit cs))

/-- Decimal digits without a zero before others. -/
def whole? (cs : List Char) : Option (List Char) := do
  match ← digits? Char.isDigit cs with
  | '0' :: _ :: _ => none
  | ds => some ds

def splitSign : List Char → Bool × List Char
  | '-' :: rest => (true, rest)
  | '+' :: rest => (false, rest)
  | cs => (false, cs)

def signed (negative : Bool) (i : Int) : Int := if negative then -i else i

/-- A number with a fraction or an exponent, both made of digits. -/
def decimal? (negative : Bool) (cs : List Char) : Option Value := do
  let isMark := fun c => c = 'e' || c = 'E'
  let body := cs.takeWhile (!isMark ·)
  let mantissa ← whole? (body.takeWhile (· ≠ '.'))
  let fraction ← match body.dropWhile (· ≠ '.') with
    | [] => some []
    | _ :: rest => digits? Char.isDigit rest
  let exponent ← match cs.dropWhile (!isMark ·) with
    | [] => some 0
    | _ :: rest =>
      let (down, ds) := splitSign rest
      (digits? Char.isDigit ds).map fun ds => signed down (valueIn 10 ds)
  let x := Decimal.nearest negative (valueIn 10 (mantissa ++ fraction))
    (exponent - fraction.length)
  if x == 1 / 0 then none else some (.decimal x)

def number? (cs : List Char) : Option Value :=
  match cs with
  | '0' :: 'x' :: rest => inBase 16 isHex rest
  | '0' :: 'o' :: rest => inBase 8 isOctal rest
  | '0' :: 'b' :: rest => inBase 2 isBinary rest
  | cs =>
    let (negative, body) := splitSign cs
    if body = "inf".toList then some (.decimal (if negative then -(1 / 0) else 1 / 0))
    else if body = "nan".toList then some (.decimal (0 / 0))
    else if body.any fun c => c = '.' || c = 'e' || c = 'E' then decimal? negative body
    else do bounded (signed negative (valueIn 10 (← whole? body)))

/-- The value that a word without quotes stands for. -/
def scalar? (cs : List Char) : Option Value :=
  if cs = "true".toList then some (.flag true)
  else if cs = "false".toList then some (.flag false)
  else (number? cs).or ((Moment.ofChars? .exact cs).map .moment)

end Naming.Toml

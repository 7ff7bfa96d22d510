namespace Naming.Decimal

/-- The power of ten at the first digit of `num / den`, searched for from `10 ^ high` down. -/
def magnitude (num den : Nat) (low : Int) : Nat → Int
  | 0 => low
  | span + 1 =>
    let e := low + (span : Int) + 1
    let reached :=
      if 0 ≤ e then den * Nat.pow 10 e.toNat ≤ num else den ≤ num * Nat.pow 10 (-e).toNat
    if reached then e else magnitude num den low span

/-- The point of the grid of multiples of `10 ^ e` that lies between `low` and `high` and is nearest
to `value`, all counted in quarters of `2 ^ q`; of two that are equally near the greater. -/
def onGrid (low value high : Nat) (closed : Bool) (q e : Int) : Option Nat :=
  let scale := Nat.pow 2 q.toNat * Nat.pow 10 (-e).toNat
  let unit := 4 * Nat.pow 2 (-q).toNat * Nat.pow 10 e.toNat
  let inside := fun d : Nat =>
    if closed then low * scale ≤ d * unit && d * unit ≤ high * scale
    else low * scale < d * unit && d * unit < high * scale
  let d := value * scale / unit
  let below := inside d && d != 0
  let above := inside (d + 1)
  if below && above then
    if 2 * (value * scale - d * unit) < unit then some d else some (d + 1)
  else if below then some d
  else if above then some (d + 1)
  else none

def search (low value high : Nat) (closed : Bool) (q top : Int) :
    Nat → Nat → Nat × Int
  | _, 0 => (0, 0)
  | digits, fuel + 1 =>
    let e := top - digits
    match onGrid low value high closed q e with
    | some d => (d, e)
    | none => search low value high closed q top (digits + 1) fuel

/-- The fewest digits that read back as `m * 2 ^ q`, and the power of ten that they count. A number
reads back as the nearest of all `m * 2 ^ q` with `m` below `2 ^ 53`, the even `m` on a tie; below
a power of two these lie half as far apart. -/
def shortest (m : Nat) (q : Int) : Nat × Int :=
  let value := 4 * m
  let low := if m = Nat.pow 2 52 ∧ -1074 < q then value - 1 else value - 2
  let top := magnitude (m * Nat.pow 2 q.toNat) (Nat.pow 2 (-q).toNat) (-330) 640
  search low value (value + 2) (m % 2 = 0) q top 0 18

/-- All digits of `d * 10 ^ e`, with a point only where there is a fraction. -/
def positional (d : Nat) (e : Int) : String :=
  if 0 ≤ e then toString (d * Nat.pow 10 e.toNat)
  else
    let places := (-e).toNat
    let digits := (toString d).toList
    let padded := List.replicate (places + 1 - digits.length) '0' ++ digits
    let whole := padded.take (padded.length - places)
    let fraction := (padded.drop (padded.length - places)).reverse.dropWhile (· = '0')
    if fraction.isEmpty then String.ofList whole
    else String.ofList (whole ++ '.' :: fraction.reverse)

/-- The shortest text that reads back as the same number, without an exponent. -/
def text (x : Float) : String :=
  let bits := x.toBits.toNat
  let exponent := bits / Nat.pow 2 52 % Nat.pow 2 11
  let fraction := bits % Nat.pow 2 52
  let sign := if bits / Nat.pow 2 63 = 1 then "-" else ""
  if exponent = 2047 then if fraction = 0 then sign ++ "inf" else "NaN"
  else if exponent = 0 then
    if fraction = 0 then sign ++ "0"
    else
      let (d, e) := shortest fraction (-1074)
      sign ++ positional d e
  else
    let (d, e) := shortest (Nat.pow 2 52 + fraction) ((exponent : Int) - 1075)
    sign ++ positional d e

def digitsValue (cs : List Char) : Nat := cs.foldl (fun n c => 10 * n + (c.toNat - 48)) 0

/-- The number nearest to `m * 10 ^ e`. -/
def nearest (negative : Bool) (m : Nat) (e : Int) : Float :=
  let size := (toString m).length
  let x :=
    if m = 0 || e + size < -400 then 0
    else if 400 < e + size then 1 / 0
    else if 0 ≤ e then Float.ofScientific m false e.toNat
    else Float.ofScientific m true (-e).toNat
  if negative then -x else x

/-- The power of ten written after the letter `e`. -/
def exponent? (cs : List Char) : Option Int :=
  let (negative, digits) := match cs with
    | '-' :: rest => (true, rest)
    | '+' :: rest => (false, rest)
    | _ => (false, cs)
  if digits.isEmpty || !digits.all Char.isDigit then none
  else
    let n : Int := digitsValue digits
    some (if negative then -n else n)

/-- The number that digits, with or without a fraction and an exponent, stand for. -/
def unsigned? (negative : Bool) (cs : List Char) : Option Float := do
  let isMark := fun c => c = 'e' || c = 'E'
  let body := cs.takeWhile (!isMark ·)
  let whole := body.takeWhile (· ≠ '.')
  let fraction := (body.dropWhile (· ≠ '.')).drop 1
  if (whole ++ fraction).isEmpty || !(whole ++ fraction).all Char.isDigit then none
  else
    let e ← match cs.dropWhile (!isMark ·) with
      | [] => some 0
      | _ :: rest => exponent? rest
    return nearest negative (digitsValue (whole ++ fraction)) (e - fraction.length)

def isWord (words : List String) (cs : List Char) : Bool :=
  words.contains (String.ofList (cs.map Char.toLower))

/-- The number written in a text; infinity and what is no number have names in any case. -/
def ofText? (s : String) : Option Float :=
  let (negative, cs) := match s.toList with
    | '-' :: rest => (true, rest)
    | '+' :: rest => (false, rest)
    | cs => (false, cs)
  if isWord ["inf", "infinity"] cs then some (if negative then -(1 / 0) else 1 / 0)
  else if isWord ["nan"] cs then some (0 / 0)
  else unsigned? negative cs

/-- The integer written in decimal digits, with a sign or without. -/
def integer? (s : String) : Option Int :=
  let (negative, digits) := match s.toList with
    | '-' :: rest => (true, rest)
    | '+' :: rest => (false, rest)
    | cs => (false, cs)
  if digits.isEmpty || !digits.all Char.isDigit then none
  else
    let n : Int := digitsValue digits
    some (if negative then -n else n)

end Naming.Decimal

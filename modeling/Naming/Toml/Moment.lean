namespace Naming.Toml

/-- How exactly the parts of a date or a time are checked. What is written for a date has to name a
time of the day. In a text that is meant for a date the day may have a 25th hour, and the distance
from universal time is checked as a whole. -/
inductive Care where
  | exact
  | loose
deriving DecidableEq

namespace Moment

def digit? (c : Char) : Option Nat := if c.isDigit then some (c.toNat - 48) else none

/-- The number of two digits. -/
def pair? (a b : Char) : Option Nat := do return 10 * (← digit? a) + (← digit? b)

/-- The number of two digits, when it lies in the range. -/
def pairIn? (low high : Nat) (a b : Char) : Option Nat := do
  let n ← pair? a b
  if low ≤ n && n ≤ high then return n else none

def isLeap (year : Nat) : Bool := year % 4 = 0 && (year % 100 ≠ 0 || year % 400 = 0)

def monthDays (year month : Nat) : Nat :=
  if month = 2 then if isLeap year then 29 else 28
  else if month = 4 || month = 6 || month = 9 || month = 11 then 30
  else 31

/-- A date, as it is written, and what follows it. -/
def date? : List Char → Option (List Char × List Char)
  | a :: b :: c :: d :: '-' :: e :: f :: '-' :: g :: h :: rest => do
    let year := 100 * (← pair? a b) + (← pair? c d)
    let month ← pairIn? 1 12 e f
    let _ ← pairIn? 1 (monthDays year month) g h
    return ([a, b, c, d, '-', e, f, '-', g, h], rest)
  | _ => none

/-- Fractions of a second are cut after nine digits and lose the zeros at their end. -/
def fraction? : List Char → Option (List Char × List Char)
  | '.' :: rest =>
    let ds := rest.takeWhile Char.isDigit
    if ds.isEmpty then none
    else
      let kept := ((ds.take 9).reverse.dropWhile (· = '0')).reverse
      some (if kept.isEmpty then [] else '.' :: kept, rest.dropWhile Char.isDigit)
  | cs => some ([], cs)

/-- A time of day, and what follows it. -/
def time? (care : Care) : List Char → Option (List Char × List Char)
  | a :: b :: ':' :: c :: d :: ':' :: e :: f :: rest => do
    let _ ← pairIn? 0 (if care = .exact then 23 else 24) a b
    let _ ← pairIn? 0 59 c d
    let _ ← pairIn? 0 60 e f
    let (fraction, rest) ← fraction? rest
    return ([a, b, ':', c, d, ':', e, f] ++ fraction, rest)
  | _ => none

def twoDigits (n : Nat) : List Char := [Nat.digitChar (n / 10), Nat.digitChar (n % 10)]

/-- A distance from universal time in hours and minutes. No distance at all has a plus sign. -/
def offsetText (sign : Char) (minutes : Nat) : List Char :=
  (if minutes = 0 then '+' else sign) :: twoDigits (minutes / 60) ++ ':' :: twoDigits (minutes % 60)

/-- The distance from universal time, if there is any. -/
def offset? (care : Care) : List Char → Option (List Char)
  | [] => some []
  | ['Z'] | ['z'] => some ['Z']
  | [s, a, b, ':', c, d] => do
    let hours ← pair? a b
    let minutes ← pair? c d
    let inReach := match care with
      | .exact => hours ≤ 23 && minutes ≤ 59
      | .loose => 60 * hours + minutes ≤ 1440
    if (s = '+' || s = '-') && inReach then return offsetText s (60 * hours + minutes) else none
  | _ => none

/-- A date, a time, or both with a distance from universal time or without, as one text. -/
def ofChars? (care : Care) (cs : List Char) : Option String := do
  match cs with
  | _ :: _ :: ':' :: _ =>
    match ← time? care cs with
    | (time, []) => return String.ofList time
    | _ => none
  | _ =>
    match ← date? cs with
    | (date, []) => return String.ofList date
    | (date, mark :: rest) =>
      if mark = 'T' || mark = 't' || mark = ' ' then
        let (time, rest) ← time? care rest
        return String.ofList (date ++ 'T' :: time ++ (← offset? care rest))
      else none

end Moment

end Naming.Toml

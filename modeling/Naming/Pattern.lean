import Naming.Bytes
import Naming.Text.Blank

namespace Naming

/-- The switches of a pattern that decide how it is read. In a spaced pattern blanks and comments
say nothing. Without tables of letters, patterns over all characters cannot ignore case. -/
structure PatternMode where
  ignoresCase : Bool := false
  isUnicode : Bool := true
  isSpaced : Bool := false
deriving DecidableEq

namespace PatternMode

def switches : List Char := "imsUuRx".toList

def turn (m : PatternMode) (switch : Char) (on : Bool) : PatternMode :=
  match switch with
  | 'i' => { m with ignoresCase := on }
  | 'u' => { m with isUnicode := on }
  | 'x' => { m with isSpaced := on }
  | _ => m

/-- Skips blanks, and comments up to the ends of their lines. -/
def skipFrom (inComment : Bool) : List Char → List Char
  | [] => []
  | c :: rest =>
    if inComment then skipFrom (c ≠ '\n') rest
    else if Text.Blank.holds c then skipFrom false rest
    else if c = '#' then skipFrom true rest
    else c :: rest

def skip (m : PatternMode) (cs : List Char) : List Char :=
  if m.isSpaced then skipFrom false cs else cs

/-- The next character that counts, as far as one mark of a comment. -/
def peek? (m : PatternMode) (cs : List Char) : Option Char :=
  if m.isSpaced then
    match cs.dropWhile Text.Blank.holds with
    | '#' :: rest => (rest.dropWhile Text.Blank.holds).head?.or cs.head?
    | c :: _ => some c
    | [] => cs.head?
  else cs.head?

end PatternMode

/-- The smallest parts of a pattern. -/
inductive PatternAtom where
  | literal (c : Char) (isByte : Bool)
  | any
  | edge
  | wordEdge
  | shorthand (negated : Bool)
deriving DecidableEq

namespace PatternAtom

/-- Whether an atom can be carried out on texts. Words and digits of all scripts would need tables
of letters, and single bytes beyond the first 128 are no text. -/
def isSound (m : PatternMode) : PatternAtom → Bool
  | literal c isByte =>
    if m.isUnicode then !m.ignoresCase else !isByte || c.toNat < 0x80
  | any => m.isUnicode
  | edge => true
  | wordEdge => !m.isUnicode
  | shorthand negated => !m.isUnicode && !negated

/-- The same for a member of a set. -/
def isSoundMember (m : PatternMode) : PatternAtom → Bool
  | literal c _ => if m.isUnicode then !m.ignoresCase else c.toNat < 0x80
  | shorthand negated => !m.isUnicode && !negated
  | any | edge | wordEdge => false

/-- Hexadecimal digits, which may stand apart in a spaced pattern. -/
def hexDigits (m : PatternMode) : Nat → Nat → List Char → Option (Nat × List Char)
  | 0, n, cs => some (n, cs)
  | count + 1, n, cs =>
    match m.skip cs with
    | c :: rest => do hexDigits m count (16 * n + (← Bytes.hexDigit? c)) rest
    | [] => none

def numbered (m : PatternMode) (digits : Nat) (cs : List Char) :
    Option (PatternAtom × List Char) := do
  let (n, rest) ← hexDigits m digits 0 cs
  if n.isValidChar then return (literal (Char.ofNat n) (digits = 2), m.skip rest) else none

def control? : Char → Option Nat
  | 'a' => some 7
  | 't' => some 9
  | 'n' => some 10
  | 'v' => some 11
  | 'f' => some 12
  | 'r' => some 13
  | _ => none

/-- Signs stand for themselves after a backslash, but not the angle brackets. -/
def isSign (c : Char) : Bool := c.toNat < 0x80 && !c.isAlphanum && c ≠ '<' && c ≠ '>'

/-- What a backslash makes of the characters after it. -/
def escaped (m : PatternMode) : List Char → Option (PatternAtom × List Char)
  | [] => none
  | 'x' :: rest => numbered m 2 rest
  | 'u' :: rest => numbered m 4 rest
  | 'U' :: rest => numbered m 8 rest
  | c :: rest =>
    match control? c with
    | some n => some (literal (Char.ofNat n) false, rest)
    | none =>
      if isSign c then some (literal c false, rest)
      else if ['d', 's', 'w'].contains c then some (shorthand false, rest)
      else if ['D', 'S', 'W'].contains c then some (shorthand true, rest)
      else if c = 'A' || c = 'z' then some (edge, rest)
      else if ['b', 'B', '<', '>'].contains c then some (wordEdge, rest)
      else none

/-- An atom outside of sets. -/
def read (m : PatternMode) : List Char → Option (PatternAtom × List Char)
  | [] => none
  | '\\' :: rest => escaped m rest
  | '.' :: rest => some (any, rest)
  | c :: rest => some (if c = '^' || c = '$' then edge else literal c false, rest)

/-- An atom in a set. -/
def readMember (m : PatternMode) : List Char → Option (PatternAtom × List Char)
  | [] => none
  | '\\' :: rest => escaped m rest
  | c :: rest => some (literal c false, rest)

end PatternAtom

end Naming

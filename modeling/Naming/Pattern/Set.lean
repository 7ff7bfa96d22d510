import Naming.Pattern

namespace Naming.PatternSet

/-- The members read so far, each with a depth: how many there are since the last operator, the
deepest of them, and the depth of all before the operator. -/
structure Progress where
  count : Nat := 0
  deepest : Nat := 0
  before : Option Nat := none

namespace Progress

def add (p : Progress) (depth : Nat) : Progress :=
  { p with count := p.count + 1, deepest := max p.deepest depth }

/-- Several members and the sides of an operator lie one level deeper. -/
def depth (p : Progress) : Nat :=
  let members := if p.count < 2 then p.deepest else p.deepest + 1
  match p.before with
  | none => members
  | some before => max before members + 1

def operator (p : Progress) : Progress := { before := some p.depth }

end Progress

def classes : List String :=
  ["alnum", "alpha", "ascii", "blank", "cntrl", "digit", "graph", "lower", "print", "punct",
    "space", "upper", "word", "xdigit"]

/-- A class of characters by its name between colons, after the first bracket. A caret turns it
around. -/
def namedClass? : List Char → Option (Bool × List Char)
  | ':' :: cs =>
    let (negated, cs) := match cs with
      | '^' :: rest => (true, rest)
      | cs => (false, cs)
    let name := cs.takeWhile (· ≠ ':')
    match cs.dropWhile (· ≠ ':') with
    | ':' :: ']' :: rest =>
      if classes.contains (String.ofList name) then some (negated, rest) else none
    | _ => none
  | _ => none

def isSoundClass (m : PatternMode) (negated : Bool) : Bool :=
  if m.isUnicode then !m.ignoresCase else !negated

/-- Counts the hyphens that a set begins with, which are members. -/
def hyphens (m : PatternMode) : Nat → List Char → Nat × List Char
  | steps + 1, '-' :: rest =>
    let (count, rest) := hyphens m steps (m.skip rest)
    (count + 1, rest)
  | _, cs => (0, cs)

/-- What stands at the beginning of a set: a caret, which turns it around, and members that mean
something else further on. -/
def opening (m : PatternMode) (cs : List Char) : Bool × Nat × List Char :=
  let (negated, cs) := match m.skip cs with
    | '^' :: rest => (true, m.skip rest)
    | cs => (false, cs)
  match hyphens m cs.length cs with
  | (0, ']' :: rest) => (negated, 1, m.skip rest)
  | (count, rest) => (negated, count, rest)

/-- Whether a hyphen before these characters stands between the ends of a range. -/
def isRange (m : PatternMode) (cs : List Char) : Bool :=
  m.peek? cs ≠ some ']' && m.peek? cs ≠ some '-'

/-- One atom, or a range whose ends are characters in order. -/
def member (m : PatternMode) (cs : List Char) : Option (List Char) := do
  let (first, rest) ← PatternAtom.readMember m cs
  let rest := m.skip rest
  match rest with
  | '-' :: more =>
    if isRange m more then
      match first, ← PatternAtom.readMember m (m.skip more) with
      | .literal low _, (.literal high byte, rest) =>
        if low ≤ high && first.isSoundMember m && (PatternAtom.literal high byte).isSoundMember m
        then return rest else none
      | _, _ => none
    else if first.isSoundMember m then return rest else none
  | _ => if first.isSoundMember m then return rest else none

mutual

/-- The depth of a set, and what follows it, when it is read after its first bracket. Each of the
steps reads an opening, a member or an operator. -/
def readWithin (m : PatternMode) : Nat → List Char → Option (Nat × List Char)
  | 0, _ => none
  | steps + 1, cs => do
    let (negated, count, cs) := opening m cs
    if negated && !m.isUnicode || 0 < count && m.isUnicode && m.ignoresCase then none
    let (depth, rest) ← members m steps { count := count } cs
    return (depth + 1, rest)

def members (m : PatternMode) : Nat → Progress → List Char → Option (Nat × List Char)
  | 0, _, _ => none
  | steps + 1, p, cs =>
    match m.skip cs with
    | [] => none
    | ']' :: rest => some (p.depth, rest)
    | '&' :: '&' :: rest | '-' :: '-' :: rest | '~' :: '~' :: rest =>
      members m steps p.operator rest
    | '[' :: rest =>
      match namedClass? rest with
      | some (negated, rest) =>
        if isSoundClass m negated then members m steps (p.add 0) rest else none
      | none => do
        let (depth, rest) ← readWithin m steps rest
        members m steps (p.add depth) rest
    | cs => do members m steps (p.add 0) (← member m cs)

end

/-- Reads a set after its first bracket. No character takes more than two steps. -/
def read (m : PatternMode) (cs : List Char) : Option (Nat × List Char) :=
  readWithin m (2 * cs.length + 2) cs

end Naming.PatternSet

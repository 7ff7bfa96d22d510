import Naming.Pattern.Set
import Naming.Text.Alphanumeric

namespace Naming.Pattern

/-- How deep the parts of a pattern may be nested. -/
def deepest : Nat := 250

/-- What has been read of a pattern or a group: how many parts the present sequence has, how deep
the deepest and the latest of them are, whether the latest may be repeated, and the depth of the
alternatives before it. -/
structure Progress where
  count : Nat := 0
  deepest : Nat := 0
  latest : Nat := 0
  isRepeatable : Bool := false
  before : Option Nat := none

namespace Progress

def add (p : Progress) (depth : Nat) : Progress :=
  { p with count := p.count + 1, deepest := max p.deepest depth, latest := depth,
           isRepeatable := true }

/-- A change of switches is a part that cannot be repeated. -/
def addSwitches (p : Progress) : Progress := { p.add 0 with isRepeatable := false }

def repeatLatest (p : Progress) : Progress :=
  { p with deepest := max p.deepest (p.latest + 1), latest := p.latest + 1 }

/-- Several parts lie one level deeper than one. -/
def sequence (p : Progress) : Nat := if p.count < 2 then p.deepest else p.deepest + 1

def alternative (p : Progress) : Progress := { before := some (max (p.before.getD 0) p.sequence) }

def depth (p : Progress) : Nat :=
  match p.before with
  | none => p.sequence
  | some before => max before p.sequence + 1

end Progress

/-- How a group begins: it may only turn switches, have a mode of its own, or have a name. -/
inductive Opening where
  | switches (m : PatternMode)
  | group (m : PatternMode)
  | named (name : List Char)

/-- Reads switches up to a colon or the closing bracket. None is written twice, and only one sign,
with a switch after it, turns off those that follow. -/
def switches (m : PatternMode) (seen : List Char) : List Char → Option (Opening × List Char)
  | [] => none
  | c :: rest =>
    if c = ':' || c = ')' then
      if seen.head? = some '-' then none
      else if c = ':' then some (.group m, rest)
      else if seen.isEmpty then none
      else some (.switches m, rest)
    else if seen.contains c then none
    else if c = '-' then switches m (c :: seen) rest
    else if PatternMode.switches.contains c then
      switches (m.turn c (!seen.contains '-')) (c :: seen) rest
    else none

def isNameStart (c : Char) : Bool := c = '_' || Text.Alphanumeric.isLetter c

def isNameChar (c : Char) : Bool := ['_', '.', '[', ']'].contains c || Text.Alphanumeric.holds c

/-- The name of a group, up to its angle bracket. -/
def name? (cs : List Char) : Option (Opening × List Char) :=
  let name := cs.takeWhile (· ≠ '>')
  match cs.dropWhile (· ≠ '>') with
  | '>' :: rest =>
    if name.head?.any isNameStart && name.all isNameChar then some (.named name, rest) else none
  | _ => none

/-- Reads on after the opening bracket of a group. Groups that only look around are unknown. -/
def opening (m : PatternMode) (cs : List Char) : Option (Opening × List Char) :=
  match m.skip cs with
  | '?' :: 'P' :: '<' :: rest => name? rest
  | '?' :: '<' :: rest => name? rest
  | '?' :: rest => switches m [] rest
  | rest => some (.group m, rest)

/-- What is left of a pattern, how to read it, and the names of the groups before. -/
structure Reader where
  rest : List Char
  mode : PatternMode := {}
  names : List (List Char) := []

/-- The depth of a pattern or of a group after its opening, and what follows it. Each of the steps,
one more than characters, reads one part. -/
def readFrom : Nat → Bool → Progress → Reader → Option (Nat × Reader)
  | 0, _, _, _ => none
  | steps + 1, inGroup, p, r =>
    let goOn := fun p rest => readFrom steps inGroup p { r with rest := rest }
    match r.mode.skip r.rest with
    | [] => if inGroup then none else some (p.depth, { r with rest := [] })
    | ')' :: rest => if inGroup then some (p.depth, { r with rest := rest }) else none
    | '|' :: rest => goOn p.alternative rest
    | '[' :: rest => do
      let (depth, rest) ← PatternSet.read r.mode rest
      goOn (p.add depth) rest
    | '?' :: rest | '*' :: rest | '+' :: rest =>
      if p.isRepeatable then goOn p.repeatLatest (if rest.head? = some '?' then rest.tail else rest)
      else none
    | '\x7b' :: _ => none
    | '(' :: rest => do
      match ← opening r.mode rest with
      | (.switches m, rest) =>
        readFrom steps inGroup p.addSwitches { r with rest := rest, mode := m }
      | (.group m, rest) =>
        let (depth, inner) ← readFrom steps true {} { r with rest := rest, mode := m }
        readFrom steps inGroup (p.add (depth + 1)) { inner with mode := r.mode }
      | (.named name, rest) =>
        if r.names.contains name then none
        else
          let (depth, inner) ← readFrom steps true {}
            { r with rest := rest, names := name :: r.names }
          readFrom steps inGroup (p.add (depth + 1)) { inner with mode := r.mode }
    | cs => do
      let (atom, rest) ← PatternAtom.read r.mode cs
      if atom.isSound r.mode then goOn (p.add 0) rest else none

/-- Whether a text is a pattern that can be carried out on texts. Counted repetition is not among
the patterns known here, so that a brace has to be escaped. -/
def isSound (s : String) : Bool :=
  match readFrom (s.length + 1) false {} { rest := s.toList } with
  | some (depth, _) => depth ≤ deepest
  | none => false

end Naming.Pattern

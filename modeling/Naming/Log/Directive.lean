import Naming.Decimal
import Naming.Log.Event
import Naming.Pattern.Sound

namespace Naming.Log

/-- The most verbose level that passes, if any does. -/
abbrev Threshold := Option Level

namespace Threshold

def admits (t : Threshold) (level : Level) : Bool :=
  match t with
  | none => false
  | some most => level.rank ≤ most.rank

def name : Threshold → String
  | none => "off"
  | some level => level.name

def named : List (String × Threshold) :=
  [("off", none), ("error", some .error), ("warn", some .warn), ("info", some .info),
    ("debug", some .debug), ("trace", some .trace)]

/-- A threshold is written as a word in any case, or as its number in the row of all. -/
def ofText? (s : String) : Option Threshold :=
  let digits := match s.toList with
    | '+' :: rest => rest
    | cs => cs
  if !digits.isEmpty && digits.all Char.isDigit then
    let n := digits.foldl (fun n c => 10 * n + (c.toNat - 48)) 0
    named[n]?.map (·.2)
  else if s.isEmpty then some (some .error)
  else named.lookup (String.ofList (s.toList.map Char.toLower))

end Threshold

/-- A rule of a filter: how much passes for events of a target that carry certain fields. A rule for
a span, or for a value of a field, is about no event. -/
structure Directive where
  level : Threshold := some .trace
  target : Option String := none
  span : Option String := none
  fields : List String := []
  hasValues : Bool := false
deriving DecidableEq

namespace Directive

inductive Fault where
  | malformed
  | level
  | field
deriving DecidableEq

def Fault.message : Fault → String
  | malformed => "invalid filter directive"
  | level => "error parsing level filter: expected one of \"off\", \"error\", \"warn\", " ++
      "\"info\", \"debug\", \"trace\", or a number 0-5"
  | field => "invalid field filter: error building NFA"

/-- What is being read, with the place where it begins. -/
inductive Reading where
  | start
  | first (begin : Nat)
  | span (begin : Nat)
  | field (begin : Nat)
  | fields
  | target
  | level (begin : Nat)
  | complete

def isStart (c : Char) : Bool := c = '-' || c = ':' || c = '_' || Text.Alphanumeric.holds c

/-- The characters that begin at or after one place and before another, both counted in bytes. -/
def sliceFrom (start low high : Nat) : List Char → List Char
  | [] => []
  | c :: rest =>
    let later := sliceFrom (start + c.utf8Size) low high rest
    if low ≤ start && start < high then c :: later else later

/-- A word alone is a threshold if it is one, and otherwise a target of which all passes. -/
def settleFirst (d : Directive) (word : String) : Directive :=
  if word.isEmpty then { d with level := some .trace, target := none }
  else
    match Threshold.ofText? word with
    | some level => { d with level := level, target := none }
    | none => { d with level := some .trace, target := some word }

/-- No threshold at all lets everything pass. -/
def settleLevel (d : Directive) (word : String) : Except Fault Directive :=
  if word.isEmpty then .ok { d with level := some .trace }
  else
    match Threshold.ofText? word with
    | some level => .ok { d with level := level }
    | none => .error .level

/-- The value of a field is a number or a pattern, which words for flags are as well. -/
def isValue (word : String) : Bool := (Decimal.ofText? word).isSome || Pattern.isSound word

/-- A field by its name, with a value behind an equals sign or without. Nothing after a second sign
is read. -/
def addField (d : Directive) (word : String) : Except Fault Directive :=
  match word.splitOn "=" with
  | name :: value :: _ =>
    if isValue value then .ok { d with fields := d.fields ++ [name], hasValues := true }
    else .error .field
  | [name] =>
    if name.isEmpty then .error .malformed else .ok { d with fields := d.fields ++ [name] }
  | [] => .error .malformed

/-- Reads the character at a place, with the text cut up to that place at hand. -/
def advance (text : Nat → Nat → String) (stop place : Nat) (c : Char) (d : Directive) :
    Reading → Except Fault (Directive × Reading)
  | .start =>
    if c = '[' then .ok (d, .span (place + 1))
    else if isStart c then .ok (d, .first place)
    else .error .malformed
  | .first begin =>
    if c = '=' then .ok ({ d with target := some (text begin place) }, .level (place + 1))
    else if c = '[' then .ok ({ d with target := some (text begin place) }, .span (place + 1))
    else if c = ',' then .ok (d.settleFirst (text begin stop), .complete)
    else .ok (d, .first begin)
  | .span begin =>
    let word := text begin place
    if c = ']' then .ok ({ d with span := some word }, .target)
    else if c = '\x7b' then
      .ok ({ d with span := if word.isEmpty then none else some word }, .field (place + 1))
    else .ok (d, .span begin)
  | .field begin =>
    if c = '\x7d' then (d.addField (text begin place)).map (·, .fields)
    else if c = ',' then (d.addField (text begin place)).map (·, .field (place + 1))
    else .ok (d, .field begin)
  | .fields => if c = ']' then .ok (d, .target) else .error .malformed
  | .target => if c = '=' then .ok (d, .level (place + 1)) else .error .malformed
  | .level begin =>
    if c = ',' then (d.settleLevel (text begin place)).map (·, .complete)
    else .ok (d, .level begin)
  | .complete => .error .malformed

def readFrom (text : Nat → Nat → String) (stop place : Nat) (d : Directive) (r : Reading) :
    List Char → Except Fault Directive
  | [] =>
    match r with
    | .first begin => .ok (d.settleFirst (text begin stop))
    | .level begin => d.settleLevel (text begin stop)
    | .target | .complete => .ok d
    | .start | .span _ | .field _ | .fields => .error .malformed
  | c :: rest => do
    let (d, r) ← advance text stop place c d r
    readFrom text stop (place + c.utf8Size) d r rest

/-- The directive that a text spells out. Blanks around the text are not read, but places are
counted from them on, so that the words of a text that begins with a blank are cut in the wrong
places. -/
def ofText (s : String) : Except Fault Directive :=
  let text := fun low high => String.ofList (sliceFrom 0 low high s.toList)
  readFrom text s.utf8ByteSize 0 {} .start (Text.Blank.trim s.toList)

/-- Whether events are what the directive is about. -/
def isStatic (d : Directive) : Bool := d.span.isNone && !d.hasValues

end Directive

end Naming.Log

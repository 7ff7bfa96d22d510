import Naming.Log.Directive

namespace Naming.Log

/-- The rules that decide which events are put on record, those that say most first. -/
abbrev Filter := List Directive

namespace Filter

/-- How much a directive says: the length of its target comes first, then how many fields it asks
for. The words themselves put the rest in order. -/
def order (a b : Directive) : Ordering :=
  (compare (a.target.map (·.utf8ByteSize)) (b.target.map (·.utf8ByteSize))).then <|
  (compare a.fields.length b.fields.length).then <|
  (compare (a.target.getD "") (b.target.getD "")).then (compare a.fields b.fields)

def insert (d : Directive) : Filter → Filter
  | [] => [d]
  | other :: rest =>
    match order d other with
    | .gt => d :: other :: rest
    | .eq => d :: rest
    | .lt => other :: insert d rest

/-- A directive takes the place of one for the same target and fields. -/
def add (f : Filter) (d : Directive) : Filter := if d.isStatic then f.insert d else f

def ofDirectives (ds : List Directive) : Filter := ds.foldl add []

def concerns (d : Directive) (target : String) : Bool :=
  match d.target with
  | none => true
  | some start => start.toList.isPrefixOf target.toList

/-- How much of a target passes at most, whatever fields its events have. Nothing does when no
directive is about the target. -/
def threshold (f : Filter) (target : String) : Threshold :=
  (f.find? (concerns · target)).bind (·.level)

/-- The fields by which directives may ask for an event. -/
def fieldNames (e : Event) : List String := "message" :: e.fields.map (·.1)

def applies (d : Directive) (e : Event) : Bool :=
  concerns d e.source.target && d.fields.all (fieldNames e).contains

/-- Of the directives that apply to an event, the one that says most decides. -/
def admits (f : Filter) (e : Event) : Bool :=
  match f.find? (applies · e) with
  | some d => d.level.admits e.level
  | none => false

end Filter

end Naming.Log

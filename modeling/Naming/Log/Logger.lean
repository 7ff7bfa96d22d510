import Naming.Log.Filter
import Naming.Log.Written
import Naming.Settings
import Naming.Text.Escaped

namespace Naming.Log

/-- Where the events that pass a filter go, and how they are written. -/
structure Logger where
  filter : Filter
  format : LogFormat
  output : LogOutput
  file : Option String
  color : Bool

/-- A part of a filter that was left out, and why. -/
structure Ignored where
  text : String
  fault : Directive.Fault

def Ignored.message (i : Ignored) : String := s!"ignoring \x60{i.text}\x60: {i.fault.message}"

/-- What an attempt to set up a logger gives, and the files it leaves. There is no logger when
logging is not wanted. -/
structure Setup where
  ignored : List Ignored := []
  result : Except Failure (Option Logger)
  files : Files

/-- The parts of a list of directives. -/
def partsOf (text : String) : List String := (text.splitOn ",").filter (! ·.isEmpty)

/-- The filter that the environment asks for. One faulty part spoils it. -/
def environmentFilter? (e : Environment) : Option Filter := do
  let text ← e.get? "NAMESTORE_LOG"
  match (partsOf text).mapM Directive.ofText with
  | .ok ds => some (Filter.ofDirectives ds)
  | .error _ => none

def faulty (part : String) : Option Ignored :=
  match Directive.ofText part with
  | .ok _ => none
  | .error fault => some ⟨part, fault⟩

/-- The filter of a level text, which leaves faulty parts out. Without any part errors pass. -/
def levelFilter (text : String) : Filter :=
  match (partsOf text).filterMap fun part => (Directive.ofText part).toOption with
  | [] => [{ level := some .error }]
  | ds => Filter.ofDirectives ds

def moduleDirective (name level : String) : Except Failure Directive :=
  (Directive.ofText s!"{name}={level}").mapError fun fault =>
    .configuration s!"Invalid log directive: {fault.message}"

def addModules (f : Filter) : List (String × String) → Except Failure Filter
  | [] => .ok f
  | (name, level) :: rest => do addModules (f.add (← moduleDirective name level)) rest

def trimmed (cs : List Char) : String := String.ofList (Text.Blank.trim cs)

/-- The levels of modules that the environment sets. Parts without an equals sign say nothing. -/
def environmentModules (e : Environment) : List (String × String) :=
  (((e.get? "NAMESTORE_LOG_MODULES").getD "").splitOn ",").filterMap fun part =>
    match part.toList.dropWhile (· ≠ '=') with
    | [] => none
    | _ :: level => some (trimmed (part.toList.takeWhile (· ≠ '=')), trimmed level)

/-- The filter of the environment goes before all. Without it the levels of single modules come on
top of the general one, unless that is off. -/
def chooseFilter (l : LogSettings) (e : Environment) : List Ignored × Except Failure Filter :=
  match environmentFilter? e with
  | some f => ([], .ok f)
  | none =>
    if l.level = "off" then ([], .ok [{ level := none }])
    else ((partsOf l.level).filterMap faulty,
      addModules (levelFilter l.level) (l.modules ++ environmentModules e))

/-- The format of the environment, if it is one, or else that of the settings. -/
def chooseFormat (l : LogSettings) (e : Environment) : Except Failure LogFormat :=
  match (e.get? "NAMESTORE_LOG_FORMAT").bind fun name => (LogFormat.ofName name).toOption with
  | some format => .ok format
  | none => (LogFormat.ofName l.format).mapError .configuration

def chooseOutput (l : LogSettings) (e : Environment) : Except Failure LogOutput :=
  (LogOutput.ofName ((e.get? "NAMESTORE_LOG_OUTPUT").getD l.output)).mapError .configuration

def openFile (l : LogSettings) (f : Files) : Except Failure Unit × Files :=
  match l.file with
  | none => (.error (.configuration "Log output is \"file\" but no file is set"), f)
  | some file =>
    match f.makeParent file with
    | (.error fault, f) =>
      (.error (.configuration s!"Failed to create log directory: {fault.message}"), f)
    | (.ok (), f) =>
      match f.openFile file with
      | .ok f => (.ok (), f)
      | .error fault =>
        let reason := s!"{Text.Escaped.quote file}: {fault.message}"
        (.error (.configuration ("Failed to open log file " ++ reason)), f)

/-- The logger with this filter, once its file is open. -/
def prepare (l : LogSettings) (e : Environment) (f : Files) (filter : Filter) :
    Except Failure (Option Logger) × Files :=
  let way := do return (← chooseFormat l e, ← chooseOutput l e)
  match way with
  | .error failure => (.error failure, f)
  | .ok (format, output) =>
    let (opened, f) := if output = .file then openFile l f else (.ok (), f)
    (opened.map fun _ => some ⟨filter, format, output, l.file, l.color⟩, f)

/-- Sets up the logger that settings and environment ask for. -/
def setUp (l : LogSettings) (e : Environment) (f : Files) : Setup :=
  if l.enabled then
    match chooseFilter l e with
    | (ignored, .error failure) => ⟨ignored, .error failure, f⟩
    | (ignored, .ok filter) =>
      let (result, f) := prepare l e f filter
      ⟨ignored, result, f⟩
  else { result := .ok none, files := f }

/-- The lines that events are written as. -/
def Logger.lines (logger : Logger) (events : List Event) : String :=
  String.join <| events.map fun e =>
    (if logger.format = .json then e.toJson.compact else e.text) ++ "\n"

end Naming.Log

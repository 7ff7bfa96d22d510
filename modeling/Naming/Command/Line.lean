import Naming.Command

namespace Naming

/-- The command line: a command, and the options given before it. -/
structure CommandLine where
  command : Command
  store : Option String := none
  workspace : String := "."
  settings : Option String := none
  quiet : Bool := false
  verbose : Bool := false
  logLevel : Option String := none
  logFormat : Option String := none
  logOutput : Option String := none
  logFile : Option String := none

namespace CommandLine

/-- Why arguments are no command line. -/
inductive Fault where
  | unknownArgument
  | valueValidation
  | invalidValue
  | argumentConflict
  | missingArgument
  | invalidSubcommand
  | missingSubcommand
  | nothingGiven
  | helpWanted
  | tooManyValues
deriving DecidableEq

def Fault.name : Fault → String
  | unknownArgument => "UnknownArgument"
  | valueValidation => "ValueValidation"
  | invalidValue => "InvalidValue"
  | argumentConflict => "ArgumentConflict"
  | missingArgument => "MissingRequiredArgument"
  | invalidSubcommand => "InvalidSubcommand"
  | missingSubcommand => "MissingSubcommand"
  | nothingGiven => "DisplayHelpOnMissingArgumentOrSubcommand"
  | helpWanted => "DisplayHelp"
  | tooManyValues => "TooManyValues"

/-- What an option takes. -/
inductive Kind where
  | help
  | flag
  | text
  | path
  | number
deriving DecidableEq

/-- The number written in decimal digits, with a plus sign before it or not. -/
def number? (s : String) : Option Nat :=
  let digits := match s.toList with
    | '+' :: rest => rest
    | cs => cs
  if digits.isEmpty || !digits.all Char.isDigit then none
  else
    let n := digits.foldl (fun n c => 10 * n + (c.toNat - 48)) 0
    if n < Nat.pow 2 64 then some n else none

def Kind.check (kind : Kind) (value : String) : Except Fault Unit :=
  match kind with
  | help | flag | text => .ok ()
  | path => if value.isEmpty then .error .invalidValue else .ok ()
  | number => if (number? value).isSome then .ok () else .error .valueValidation

/-- An option that was named, and its value once that was read. -/
structure Pending where
  name : String
  kind : Kind
  value : Option String

/-- What was read so far. The latest option is settled only when something follows it. -/
structure Draft where
  options : List (String × String) := []
  arguments : List String := []
  pending : Option Pending := none

namespace Draft

def add (d : Draft) (name : String) (kind : Kind) (value : String) : Except Fault Draft := do
  if (d.options.lookup name).isSome then throw .argumentConflict
  kind.check value
  return { d with options := d.options ++ [(name, value)] }

/-- An option is given once, and its value is checked last. -/
def settle (d : Draft) : Except Fault Draft :=
  match d.pending with
  | none => .ok d
  | some ⟨_, _, none⟩ => .error .invalidValue
  | some ⟨name, kind, some value⟩ => { d with pending := none }.add name kind value

end Draft

/-- Splits a long option from the value that an equals sign attaches to it. -/
def splitOption (cs : List Char) : String × Option String :=
  match cs.dropWhile (· ≠ '=') with
  | [] => (String.ofList cs, none)
  | _ :: value => (String.ofList (cs.takeWhile (· ≠ '=')), some (String.ofList value))

/-- Reads a long option. -/
def readLong (kinds : List (String × Kind)) (d : Draft) (cs : List Char) : Except Fault Draft := do
  let (name, attached) := splitOption cs
  match kinds.lookup name, attached with
  | none, _ => throw .unknownArgument
  | some .help, none => do
    let _ ← d.settle
    throw .helpWanted
  | some .flag, none => (← d.settle).add name .flag "true"
  | some .help, some _ | some .flag, some _ => throw .tooManyValues
  | some kind, none => return { (← d.settle) with pending := some ⟨name, kind, none⟩ }
  | some kind, some value => (← d.settle).add name kind value

/-- How an argument before a double dash looks. -/
inductive Look where
  | dashes
  | long (cs : List Char)
  | short (c : Char)
  | plain

def look (arg : String) : Look :=
  match arg.toList with
  | ['-', '-'] => .dashes
  | '-' :: '-' :: cs => .long cs
  | '-' :: c :: _ => .short c
  | _ => .plain

/-- There is one short option, which asks for help. -/
def readShort (d : Draft) (c : Char) : Except Fault Draft := do
  if c = 'h' then
    let _ ← d.settle
    throw .helpWanted
  else throw .unknownArgument

def readPlain (most : Nat) (d : Draft) (arg : String) : Except Fault Draft := do
  if d.arguments.length < most then
    let d ← d.settle
    return { d with arguments := d.arguments ++ [arg] }
  else throw .unknownArgument

/-- Reads the arguments after a command, which takes so many of its own at most. -/
def readArguments (kinds : List (String × Kind)) (most : Nat) (d : Draft) (trailing : Bool) :
    List String → Except Fault Draft
  | [] => d.settle
  | arg :: rest => do
    if trailing then readArguments kinds most (← readPlain most d arg) true rest
    else
      match look arg with
      | .dashes => readArguments kinds most d true rest
      | .long cs => readArguments kinds most (← readLong kinds d cs) false rest
      | .short c => readArguments kinds most (← readShort d c) false rest
      | .plain =>
        match d.pending with
        | some ⟨name, kind, none⟩ =>
          let d := { d with pending := some ⟨name, kind, some arg⟩ }
          readArguments kinds most d false rest
        | _ => readArguments kinds most (← readPlain most d arg) false rest

def helpOption : List (String × Kind) := [("help", .help)]

def listOptions : List (String × Kind) := [("max", .number), ("format", .text)] ++ helpOption

/-- Reads the arguments of a command without options, which needs exactly so many. -/
def readExactly (count : Nat) (args : List String) : Except Fault (List String) := do
  let d ← readArguments helpOption count {} false args
  if d.arguments.length < count then throw .missingArgument
  return d.arguments

def readNone (command : Command) (args : List String) : Except Fault Command := do
  let _ ← readExactly 0 args
  return command

def readOne (command : String → Command) (args : List String) : Except Fault Command := do
  match ← readExactly 1 args with
  | [name] => return command name
  | _ => throw .missingArgument

def readTwo (command : String → String → Command) (args : List String) :
    Except Fault Command := do
  match ← readExactly 2 args with
  | [name, reference] => return command name reference
  | _ => throw .missingArgument

def readList (args : List String) : Except Fault Command := do
  let d ← readArguments listOptions 1 {} false args
  let max := (d.options.lookup "max").bind number?
  return .list d.arguments.head? (max.getD 100) ((d.options.lookup "format").getD "text")

/-- The commands, each with the reader of its arguments. -/
def commands : List (String × (List String → Except Fault Command)) :=
  [("root", readNone .root), ("bind", readTwo .bind), ("rebind", readTwo .rebind),
    ("resolve", readOne .resolve), ("unbind", readOne .unbind), ("list", readList),
    ("mkctx", readOne .makeContext), ("destroy", readOne .destroy), ("sweep", readNone .sweep)]

def isCommand (arg : String) : Bool := (commands.lookup arg).isSome || arg == "help"

def globalOptions : List (String × Kind) :=
  [("store", .path), ("workspace", .path), ("config", .path), ("quiet", .flag),
    ("verbose", .flag), ("log-level", .text), ("log-format", .text), ("log-output", .text),
    ("log-file", .path)] ++ helpOption

/-- Help can be had on nothing, on a command and on help itself. -/
def readHelp : List String → Fault
  | [] => .helpWanted
  | [arg] => if isCommand arg then .helpWanted else .invalidSubcommand
  | _ :: _ :: _ => .invalidSubcommand

/-- A plain argument where a command should be. -/
def noCommand (trailing : Bool) (arg : String) : Fault :=
  if trailing && isCommand arg then .unknownArgument else .invalidSubcommand

/-- What is read before the command, and the command. The command's own faults come before those
of the option right before it. -/
def readGlobal (d : Draft) (trailing : Bool) : List String → Except Fault (Draft × Command)
  | [] => do
    let d ← d.settle
    if d.options.isEmpty then throw .nothingGiven else throw .missingSubcommand
  | arg :: rest => do
    if trailing then throw (noCommand trailing arg)
    else
      match look arg with
      | .dashes => readGlobal d true rest
      | .long cs => readGlobal (← readLong globalOptions d cs) false rest
      | .short c => readGlobal (← readShort d c) false rest
      | .plain =>
        match d.pending with
        | some ⟨name, kind, none⟩ =>
          readGlobal { d with pending := some ⟨name, kind, some arg⟩ } false rest
        | _ =>
          match commands.lookup arg with
          | some read => do
            let command ← read rest
            return (← d.settle, command)
          | none => throw (if arg = "help" then readHelp rest else noCommand trailing arg)

/-- The command line that arguments spell out. -/
def ofArguments (args : List String) : Except Fault CommandLine := do
  let (d, command) ← readGlobal {} false args
  let given name := d.options.lookup name
  return {
    command := command
    store := given "store"
    workspace := (given "workspace").getD "."
    settings := given "config"
    quiet := (given "quiet").isSome
    verbose := (given "verbose").isSome
    logLevel := given "log-level"
    logFormat := given "log-format"
    logOutput := given "log-output"
    logFile := given "log-file" }

end CommandLine

end Naming

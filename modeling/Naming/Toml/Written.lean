import Naming.Bytes

namespace Naming.Toml

/-- Control characters that no written text may hold as they are. -/
def isCode (c : Char) : Bool :=
  (c.toNat < 32 && c ≠ '\t' && c ≠ '\n') || c.toNat = 127

/-- The length of the longest run of a character. -/
def longestRun (c : Char) (cs : List Char) : Nat :=
  let step := fun (longest, current) d =>
    if d = c then (max longest (current + 1), current + 1) else (longest, 0)
  (cs.foldl step ((0, 0) : Nat × Nat)).1

def escapeCode (c : Char) : List Char :=
  ['\\', 'u', '0', '0', (Bytes.hexDigit (c.toNat / 16)).toUpper,
    (Bytes.hexDigit (c.toNat % 16)).toUpper]

/-- A text between double quotes. Of `quotes` in a row none is escaped, and the next one is. -/
def escapeFrom (quotes run : Nat) (keepLines : Bool) : List Char → List Char
  | [] => []
  | '"' :: rest =>
    if run < quotes then '"' :: escapeFrom quotes (run + 1) keepLines rest
    else '\\' :: '"' :: escapeFrom quotes 0 keepLines rest
  | '\\' :: rest => '\\' :: '\\' :: escapeFrom quotes 0 keepLines rest
  | '\t' :: rest => '\\' :: 't' :: escapeFrom quotes 0 keepLines rest
  | '\r' :: rest => '\\' :: 'r' :: escapeFrom quotes 0 keepLines rest
  | c :: rest =>
    let written :=
      if c = '\n' then if keepLines then ['\n'] else ['\\', 'n']
      else if c.toNat = 8 then ['\\', 'b']
      else if c.toNat = 12 then ['\\', 'f']
      else if isCode c then escapeCode c
      else [c]
    written ++ escapeFrom quotes 0 keepLines rest

def basic (cs : List Char) : List Char := '"' :: escapeFrom 0 0 false cs ++ ['"']

def literal (cs : List Char) : List Char := '\'' :: cs ++ ['\'']

/-- A text of several lines begins on a line of its own. -/
def onLines (cs body : List Char) (delimiter : Char) : List Char :=
  let quotes := List.replicate 3 delimiter
  quotes ++ (if cs.contains '\n' then ['\n'] else []) ++ body ++ quotes

def basicOnLines (cs : List Char) : List Char := onLines cs (escapeFrom 2 0 true cs) '"'

def literalOnLines (cs : List Char) : List Char := onLines cs cs '\''

/-- A text in the first kind of quotes that takes it as it is: double or single quotes, then three
of either. If none does, in double quotes with escapes. -/
def writeText (s : String) : String :=
  let cs := s.toList
  let codes := cs.any isCode
  let lines := cs.contains '\n'
  let slashes := cs.contains '\\'
  String.ofList <|
    if !codes && !lines && !slashes && !cs.contains '"' then basic cs
    else if !codes && !lines && !cs.contains '\'' then literal cs
    else if !codes && !slashes && longestRun '"' cs ≤ 2 then basicOnLines cs
    else if !codes && longestRun '\'' cs ≤ 2 then literalOnLines cs
    else if lines then basicOnLines cs
    else basic cs

/-- A key without quotes where that can be, and else in the quotes that take it as it is. -/
def writeKey (s : String) : String :=
  let cs := s.toList
  let codes := cs.any fun c => isCode c || c = '\n'
  String.ofList <|
    if !cs.isEmpty && cs.all (fun c => c.isAlphanum || c = '_' || c = '-') then cs
    else if !codes && !cs.contains '\\' && !cs.contains '"' then basic cs
    else if !codes && !cs.contains '\'' then literal cs
    else basic cs

def line (key value : String) : String := writeKey key ++ " = " ++ value ++ "\n"

def writeFlag (b : Bool) : String := if b then "true" else "false"

end Naming.Toml

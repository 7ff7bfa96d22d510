import Naming.Binding.Set
import Naming.Bytes.Text

namespace Naming

/-- What is stored for one context. -/
structure Record where
  version : Nat
  key : ContextKey
  bindings : BindingSet

namespace Record

/-- The version of the records that this library writes, and the only one that it reads. -/
def currentVersion : Nat := 1

def encodeText (s : String) : Bytes :=
  let body := Bytes.ofText s
  Bytes.littleEndian 8 body.length ++ body

def encodeTarget : Target → Bytes
  | .object reference => Bytes.littleEndian 4 0 ++ encodeText reference
  | .context key => Bytes.littleEndian 4 1 ++ encodeText key.text

def encodeBinding (b : Binding) : Bytes :=
  encodeText b.name.id ++ encodeText b.name.kind ++ encodeTarget b.target

/-- Lengths and counts are stored in eight bytes, so they stay below this number. -/
def limit : Nat := Nat.pow 2 64

def fitsText (s : String) : Bool := (Bytes.ofText s).length < limit

def fitsTarget : Target → Bool
  | .object reference => fitsText reference
  | .context key => fitsText key.text

def fitsBinding (b : Binding) : Bool :=
  fitsText b.name.id && fitsText b.name.kind && fitsTarget b.target

/-- Whether every length in a record can be stored. -/
def fits (r : Record) : Bool :=
  fitsText r.key.text && decide (r.bindings.size < limit) && r.bindings.entries.all fitsBinding

/-- Version, key and count, and then the bindings in their order. -/
def encode (r : Record) : Bytes :=
  Bytes.littleEndian 4 r.version ++ encodeText r.key.text ++
    Bytes.littleEndian 8 r.bindings.size ++ r.bindings.entries.flatMap encodeBinding

/-- Why bytes hold no record. -/
inductive Fault where
  | cutShort
  | bodyCutShort
  | badText (fault : Bytes.TextFault)
  | badTag (tag : Nat)
deriving DecidableEq

def Fault.message : Fault → String
  | cutShort => "io error: unexpected end of file"
  | bodyCutShort => "io error: "
  | badText fault => s!"string is not valid utf8: {fault.message}"
  | badTag tag => s!"invalid value: integer `{tag}`, expected variant index 0 <= i < 2"

/-- Reads a value from the front of the bytes and leaves the rest. -/
abbrev Reader (α : Type) := Bytes → Except Fault (α × Bytes)

def readNumber (width : Nat) : Reader Nat := fun bytes =>
  if bytes.length < width then .error .cutShort
  else .ok (Bytes.ofLittleEndian (bytes.take width), bytes.drop width)

def readText : Reader String := fun bytes => do
  let (length, bytes) ← readNumber 8 bytes
  if bytes.length < length then .error .bodyCutShort
  else
    match Bytes.text (bytes.take length) with
    | .ok s => .ok (s, bytes.drop length)
    | .error fault => .error (.badText fault)

def readTarget : Reader Target := fun bytes => do
  let (tag, bytes) ← readNumber 4 bytes
  match tag with
  | 0 =>
    let (reference, bytes) ← readText bytes
    return (.object reference, bytes)
  | 1 =>
    let (key, bytes) ← readText bytes
    return (.context ⟨key⟩, bytes)
  | tag => .error (.badTag tag)

def readBinding : Reader Binding := fun bytes => do
  let (id, bytes) ← readText bytes
  let (kind, bytes) ← readText bytes
  let (target, bytes) ← readTarget bytes
  return (⟨⟨id, kind⟩, target⟩, bytes)

def readBindings : Nat → Reader (List Binding)
  | 0 => fun bytes => .ok ([], bytes)
  | count + 1 => fun bytes => do
    let (b, bytes) ← readBinding bytes
    let (rest, bytes) ← readBindings count bytes
    return (b :: rest, bytes)

/-- The record at the front of the bytes; what follows it is ignored. -/
def decode (bytes : Bytes) : Except Fault Record := do
  let (version, bytes) ← readNumber 4 bytes
  let (key, bytes) ← readText bytes
  let (count, bytes) ← readNumber 8 bytes
  let (entries, _) ← readBindings count bytes
  return ⟨version, ⟨key⟩, BindingSet.ofList entries⟩

end Record

end Naming

import Naming.Bytes

namespace Naming.Bytes

/-- The bytes that encode a text. -/
def ofText (text : String) : Bytes := text.toUTF8.data.toList

/-- Where bytes stop being text: at a sequence that is wrong whatever follows it, or at one that
the end of the bytes cuts off. -/
inductive TextFault where
  | invalid (length index : Nat)
  | incomplete (index : Nat)
deriving DecidableEq

def TextFault.message : TextFault → String
  | invalid length index => s!"invalid utf-8 sequence of {length} bytes from index {index}"
  | incomplete index => s!"incomplete utf-8 byte sequence from index {index}"

/-- The values that may follow this first byte, and how many bytes follow in all. -/
def continuation? (first : UInt8) : Option (UInt8 × UInt8 × Nat) :=
  if 0xC2 ≤ first ∧ first ≤ 0xDF then some (0x80, 0xBF, 1)
  else if first = 0xE0 then some (0xA0, 0xBF, 2)
  else if first = 0xED then some (0x80, 0x9F, 2)
  else if 0xE1 ≤ first ∧ first ≤ 0xEF then some (0x80, 0xBF, 2)
  else if first = 0xF0 then some (0x90, 0xBF, 3)
  else if first = 0xF4 then some (0x80, 0x8F, 3)
  else if 0xF1 ≤ first ∧ first ≤ 0xF3 then some (0x80, 0xBF, 3)
  else none

/-- The first fault of the bytes. `start` is the index of the character being read, `read` the
number of its bytes already seen, `due` the number still to come, and `low` and `high` bound the
next of these. -/
def textFault? (start read : Nat) (low high : UInt8) (due : Nat) : Bytes → Option TextFault
  | [] => if due = 0 then none else some (.incomplete start)
  | b :: rest =>
    match due with
    | 0 =>
      if b < 0x80 then textFault? (start + 1) 0 low high 0 rest
      else
        match continuation? b with
        | none => some (.invalid 1 start)
        | some (low, high, due) => textFault? start 1 low high due rest
    | 1 =>
      if low ≤ b ∧ b ≤ high then textFault? (start + read + 1) 0 low high 0 rest
      else some (.invalid read start)
    | due + 2 =>
      if low ≤ b ∧ b ≤ high then textFault? start (read + 1) 0x80 0xBF (due + 1) rest
      else some (.invalid read start)

/-- The text that the bytes encode. -/
def text (bytes : Bytes) : Except TextFault String :=
  let array : ByteArray := ⟨bytes.toArray⟩
  if h : array.validateUTF8 = true then
    .ok (String.ofByteArray array (ByteArray.validateUTF8_eq_true_iff.1 h))
  else .error ((textFault? 0 0 0 0 0 bytes).getD (.incomplete bytes.length))

theorem text_ofText (s : String) : text (ofText s) = .ok s := by
  have h : (⟨(ofText s).toArray⟩ : ByteArray) = s.toByteArray := by
    simp [ofText, String.toUTF8]
  have hv : (⟨(ofText s).toArray⟩ : ByteArray).validateUTF8 = true := by
    rw [h]; exact ByteArray.validateUTF8_eq_true_iff.2 s.isValidUTF8
  simp only [text, hv, ↓reduceDIte, Except.ok.injEq]
  exact String.ext_iff.2 (by simp [h])

end Naming.Bytes

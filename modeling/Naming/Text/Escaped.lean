import Naming.Text.Invisible

namespace Naming.Text.Escaped

def ofChar (c : Char) : List Char :=
  if c.toNat = 0 then ['\\', '0']
  else if c = '\t' then ['\\', 't']
  else if c = '\r' then ['\\', 'r']
  else if c = '\n' then ['\\', 'n']
  else if c = '"' || c = '\\' then ['\\', c]
  else if Invisible.holds c then ['\\', 'u', '\x7b'] ++ Nat.toDigits 16 c.toNat ++ ['\x7d']
  else [c]

/-- A text between double quotes, all on one line and all to be seen. -/
def quote (s : String) : String := "\"" ++ String.ofList (s.toList.flatMap ofChar) ++ "\""

end Naming.Text.Escaped

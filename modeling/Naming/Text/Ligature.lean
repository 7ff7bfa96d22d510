import Naming.Text.Invisible

namespace Naming.Text

/-- What may share columns with the letters before it, where the script writes them as one. -/
inductive Ligature where
  | alef
  | lamed
  | ya
  | yaWithVowel
  | consonant
  | joinedConsonant
  | tone
  | orkhon
  | subscript
deriving DecidableEq

namespace Ligature

def lams : Ranges :=
  [
    (0x644, 0x644), (0x6B5, 0x6B8), (0x76A, 0x76A), (0x8A6, 0x8A6), (0x8C7, 0x8C7)]

def alefs : Ranges :=
  [
    (0x622, 0x623), (0x625, 0x625), (0x627, 0x627), (0x671, 0x673), (0x675, 0x675), (0x773, 0x774),
    (0x870, 0x882)]

/-- Khmer letters that may stand below another one. -/
def subscripts : Ranges :=
  [
    (0x1780, 0x1782), (0x1784, 0x1787), (0x1789, 0x178C), (0x178E, 0x1793), (0x1795, 0x1798),
    (0x179B, 0x179D), (0x17A0, 0x17A0), (0x17A2, 0x17A2), (0x17A7, 0x17A7), (0x17AB, 0x17AC),
    (0x17AF, 0x17AF)]

/-- Marks that belong to the character before them and still keep the letters around them apart. -/
def spacing : Ranges :=
  [
    (0x9BE, 0x9BE), (0x9D7, 0x9D7), (0xB3E, 0xB3E), (0xB57, 0xB57), (0xBBE, 0xBBE), (0xBD7, 0xBD7),
    (0xCC0, 0xCC0), (0xCC2, 0xCC2), (0xCC7, 0xCC8), (0xCCA, 0xCCB), (0xCD5, 0xCD6), (0xD3E, 0xD3E),
    (0xD57, 0xD57), (0xDCF, 0xDCF), (0xDDF, 0xDDF), (0x1715, 0x1715), (0x1734, 0x1734),
    (0x1B35, 0x1B35), (0x1B3B, 0x1B3B), (0x1B3D, 0x1B3D), (0x1B43, 0x1B44), (0x1BAA, 0x1BAA),
    (0x1BF2, 0x1BF3), (0x200C, 0x200C), (0x2D7F, 0x2D7F), (0x302E, 0x302F), (0xA953, 0xA953),
    (0xA9C0, 0xA9C0), (0xFF9E, 0xFF9F), (0x111C0, 0x111C0), (0x11235, 0x11235), (0x1133E, 0x1133E),
    (0x1134D, 0x1134D), (0x11357, 0x11357), (0x113B8, 0x113B8), (0x113C2, 0x113C2),
    (0x113C5, 0x113C5), (0x113C7, 0x113C9), (0x113CF, 0x113CF), (0x114B0, 0x114B0),
    (0x114BD, 0x114BD), (0x115AF, 0x115AF), (0x116B6, 0x116B6), (0x11930, 0x11930),
    (0x1193D, 0x1193D), (0x11F41, 0x11F41), (0x16FF0, 0x16FF1), (0x1D165, 0x1D166),
    (0x1D16D, 0x1D172)]

/-- Invisible characters that do not keep the letters around them apart. -/
def passing : Ranges :=
  [
    (0xAD, 0xAD), (0x61C, 0x61C), (0x70F, 0x70F), (0x200B, 0x200B), (0x200E, 0x200F),
    (0x202A, 0x202E), (0x2060, 0x2064), (0x206A, 0x206F), (0xFEFF, 0xFEFF), (0x1BCA0, 0x1BCA3),
    (0x1D173, 0x1D17A), (0xE0001, 0xE0001)]

/-- Whether the letters around a character are joined as if it were not there. -/
def isPassing (c : Char) : Bool :=
  (Invisible.extending.holds c && !spacing.holds c) || passing.holds c

/-- Marks that may stand anywhere in a ligature. -/
def marks : Ranges :=
  [
    (0x34F, 0x34F), (0x17B4, 0x17B5), (0x180B, 0x180D), (0x180F, 0x180F), (0xFE00, 0xFE0F),
    (0xE0100, 0xE01EF)]

def isJoiner (c : Char) : Bool := c.toNat = 0x200D

def isConsonant (c : Char) : Bool :=
  (0x2D31 ≤ c.toNat && c.toNat ≤ 0x2D65) || c.toNat = 0x2D6F

/-- The ligature that a letter may be the end of. -/
def ofChar? (c : Char) : Option Ligature :=
  if alefs.holds c then some .alef
  else if subscripts.holds c then some .subscript
  else if isConsonant c then some .consonant
  else if c.toNat = 0x5DC then some .lamed
  else if c.toNat = 0x1A10 then some .ya
  else if c.toNat = 0xA4FC || c.toNat = 0xA4FD then some .tone
  else if c.toNat = 0x10C03 then some .orkhon
  else none

/-- Whether a joiner stands in the ligature or is not needed for it. -/
def begin : Ligature → Bool
  | lamed | ya | consonant | orkhon => false
  | alef | yaWithVowel | joinedConsonant | tone | subscript => true

/-- What a ligature is, and the columns that it adds to those counted, with one more character in
front of it. -/
def extend (joined : Bool) (c : Char) : Ligature → Option (Int × Option Ligature)
  | alef =>
    if lams.holds c then some (0, none)
    else if isPassing c then some (0, some alef)
    else none
  | lamed => if joined && c.toNat = 0x5D0 then some (0, none) else none
  | subscript => if c.toNat = 0x17D2 then some (-1, none) else none
  | ya => if joined && c.toNat = 0x1A17 then some (0, some yaWithVowel) else none
  | yaWithVowel => if c.toNat = 0x1A15 then some (0, none) else none
  | consonant =>
    if c.toNat = 0x2D7F then some (1, some joinedConsonant)
    else if joined && isConsonant c then some (0, none)
    else none
  | joinedConsonant => if isConsonant c then some (-1, none) else none
  | tone => if 0xA4F8 ≤ c.toNat && c.toNat ≤ 0xA4FB then some (0, none) else none
  | orkhon => if joined && c.toNat = 0x10C32 then some (0, none) else none

end Ligature

end Naming.Text

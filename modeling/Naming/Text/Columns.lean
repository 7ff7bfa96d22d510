import Naming.Text.Ligature
import Naming.Text.Picture
import Naming.Text.Width

namespace Naming.Text.Columns

open Picture (isPerson isPicture isRegional isSign isTextual isTone)

/-- What follows a character, as far as its width depends on it. A sequence that is joined to a
picture adds no columns to it; flags are made of two letters of a region, or of a black flag and
tags that spell out a region. -/
inductive Follower where
  | other
  | letter (l : Ligature) (joined : Bool)
  | vowelE
  | vowelAi
  | picture
  | tone
  | region
  | regions
  | joined
  | joinedKeycap
  | joinedRegion
  | joinedFlag
  | joinedFlagAndRegion
  | joinedLetters (count : Nat)
  | joinedDigits (count : Nat)
deriving DecidableEq

/-- What a selector makes of the character before it: a picture, plain text, or a wide quotation
mark. -/
inductive Style where
  | picture
  | text
  | quotation
deriving DecidableEq

def Style.ofSelector? (c : Char) : Option Style :=
  if c.toNat = 0xFE0F then some .picture
  else if c.toNat = 0xFE0E then some .text
  else if c.toNat = 0xFE01 then some .quotation
  else none

/-- All that follows a character, with the selector right after it. -/
structure Next where
  follower : Follower := .other
  style : Option Style := none

/-- What is left of what follows when its selector does not concern the character before it. -/
def Next.settle (next : Next) : Follower :=
  match next.style, next.follower with
  | none, f => f
  | some _, .letter l joined => .letter l joined
  | some _, _ => .other

/-- A selector before what follows, which it may cut off. -/
def Style.before (style : Style) (f : Follower) : Next :=
  match style, f with
  | _, .letter l joined => ⟨.letter l joined, some style⟩
  | .picture, .joined => ⟨.joined, some style⟩
  | .picture, .joinedKeycap => ⟨.joinedKeycap, some style⟩
  | _, _ => ⟨.other, some style⟩

/-- The vowel signs of Kirat Rai that are written as two of another. -/
def isVowelE (c : Char) : Bool := c.toNat = 0x16D67

def isVowelAi (c : Char) : Bool := c.toNat = 0x16D68

/-- The width of a character that nothing changes, and what it is to the character before it. -/
def alone (c : Char) : Int × Follower :=
  let follower :=
    match Ligature.ofChar? c with
    | some l => .letter l l.begin
    | none =>
      if isVowelE c then .vowelE
      else if isVowelAi c then .vowelAi
      else if isRegional c then .region
      else if isTone c then .tone
      else if isPicture c then .picture
      else .other
  (Width.ofChar c, follower)

def isTagLetter (c : Char) : Bool := 0xE0061 ≤ c.toNat && c.toNat ≤ 0xE007A

def isTagDigit (c : Char) : Bool := 0xE0030 ≤ c.toNat && c.toNat ≤ 0xE0039

def isTagEnd (c : Char) : Bool := c.toNat = 0xE007F

def isBlackFlag (c : Char) : Bool := c.toNat = 0x1F3F4

def isQuotationMark (c : Char) : Bool := [0x2018, 0x2019, 0x201C, 0x201D].contains c.toNat

/-- Whether a joiner makes one picture of this and the picture before it. -/
def isJoinable : Follower → Bool
  | .picture | .tone | .regions | .joinedFlag | .joinedFlagAndRegion => true
  | _ => false

/-- The width of a character as a part of a picture that goes on after it. -/
def withinPicture? (c : Char) (next : Follower) : Option (Int × Follower) :=
  if Ligature.isJoiner c && isJoinable next then some (0, .joined)
  else
    match next with
    | .tone => if isPerson c then some (0, .picture) else none
    | .region | .regions => if isRegional c then some (1, .regions) else none
    | .joined =>
      if c.toNat = 0x20E3 then some (0, .joinedKeycap)
      else if isRegional c then some (1, .joinedRegion)
      else if isTone c then some (0, .tone)
      else if isTagEnd c then some (0, .joinedLetters 0)
      else if isPicture c then some (0, .picture)
      else none
    | .joinedRegion | .joinedFlagAndRegion =>
      if isRegional c then some (-1, .joinedFlag) else none
    | .joinedFlag => if isRegional c then some (3, .joinedFlagAndRegion) else none
    | .joinedLetters n =>
      if isTagLetter c && n < 6 then some (0, .joinedLetters (n + 1))
      else if isTagDigit c && n < 5 then some (0, .joinedDigits 1)
      else if isBlackFlag c && 3 ≤ n then some (0, .picture)
      else none
    | .joinedDigits n =>
      if isTagDigit c && n < 3 then some (0, .joinedDigits (n + 1))
      else if isBlackFlag c && n = 3 then some (0, .picture)
      else none
    | .picture | .letter .. | .vowelE | .vowelAi | .joinedKeycap | .other => none

/-- The width of a vowel sign before the second part of another one. -/
def withinVowel? (c : Char) : Follower → Option (Int × Follower)
  | .vowelE =>
    if isVowelE c then some (0, .vowelAi)
    else if isVowelAi c then some (1, .vowelE)
    else if c.toNat = 0x16D63 || c.toNat = 0x16D69 then some (0, .other)
    else none
  | .vowelAi => if c.toNat = 0x16D63 then some (0, .other) else none
  | _ => none

def withinLetter? (c : Char) : Follower → Option (Int × Follower)
  | .letter l joined =>
    if l ≠ .alef && Ligature.isJoiner c then some (0, .letter l true)
    else if l ≠ .alef && Ligature.marks.holds c then some (0, .letter l joined)
    else (l.extend joined c).map fun (width, l) =>
      (width, (l.map fun l => Follower.letter l l.begin).getD .other)
  | _ => none

/-- The width of a character before what follows. -/
def follow (c : Char) (next : Follower) : Int × Follower :=
  (withinLetter? c next).getD ((withinVowel? c next).getD ((withinPicture? c next).getD (alone c)))

/-- The width of a character before what follows and its selector. A sign with a selector for
pictures is as wide as a picture, and a picture with one for text as narrow as text. -/
def before (c : Char) (next : Next) : Int × Next :=
  if next.style = some .picture && isSign c then
    (if next.follower = .joined || next.follower = .joinedKeycap then 0 else 2, ⟨.picture, none⟩)
  else if c.toNat ≤ 0xA0 then (1, {})
  else
    match Style.ofSelector? c, next.style with
    | some style, _ => (0, style.before next.settle)
    | none, style =>
      if style = some .text && isTextual c then (1, {})
      else if style = some .quotation && isQuotationMark c then (2, {})
      else
        let (width, follower) := follow c next.settle
        (width, ⟨follower, none⟩)

/-- The number of columns that a line takes up. -/
def ofLine (line : List Char) : Nat :=
  (line.foldr (fun c (total, next) =>
    let (width, next) := before c next
    (total + width, next)) ((0, {}) : Int × Next)).1.toNat

end Naming.Text.Columns

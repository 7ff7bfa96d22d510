import Naming.Bytes

namespace Naming.Toml

abbrev Parser (α : Type) := List Char → Option (α × List Char)

/-- Text may hold any character but control characters other than the tab. -/
def isPlain (c : Char) : Bool := c = '\t' || (32 ≤ c.toNat && c.toNat ≠ 127)

def simpleEscape? : Char → Option Char
  | 'b' => some (Char.ofNat 8)
  | 't' => some '\t'
  | 'n' => some '\n'
  | 'f' => some (Char.ofNat 12)
  | 'r' => some '\r'
  | '"' => some '"'
  | '\\' => some '\\'
  | _ => none

/-- The character with this number in hexadecimal digits, if there is one. -/
def numbered? (cs : List Char) : Option Char := do
  let n ← cs.foldlM (fun n c => (Bytes.hexDigit? c).map (16 * n + ·)) 0
  if n.isValidChar then some (Char.ofNat n) else none

/-- The rest of a text in double quotes on one line. -/
def basicBody : Parser (List Char)
  | '"' :: rest => some ([], rest)
  | '\\' :: 'u' :: a :: b :: c :: d :: rest => do
    let x ← numbered? [a, b, c, d]
    let (cs, rest) ← basicBody rest
    return (x :: cs, rest)
  | '\\' :: 'U' :: a :: b :: c :: d :: e :: f :: g :: h :: rest => do
    let x ← numbered? [a, b, c, d, e, f, g, h]
    let (cs, rest) ← basicBody rest
    return (x :: cs, rest)
  | '\\' :: c :: rest => do
    let x ← simpleEscape? c
    let (cs, rest) ← basicBody rest
    return (x :: cs, rest)
  | c :: rest => do
    if isPlain c && c ≠ '\\' then
      let (cs, rest) ← basicBody rest
      return (c :: cs, rest)
    else none
  | [] => none

/-- The rest of a text in single quotes on one line. -/
def literalBody : Parser (List Char)
  | '\'' :: rest => some ([], rest)
  | c :: rest => do
    if isPlain c then
      let (cs, rest) ← literalBody rest
      return (c :: cs, rest)
    else none
  | [] => none

/-- Where the reader of a text of several lines is with regard to a backslash at the end of a line,
which swallows all blanks and line ends after it. -/
inductive Fold where
  | none
  | lineDue
  | swallowing

/-- The rest of a text in three double quotes. Up to two quotes may stand before the last three. -/
def basicLines (fold : Fold) : Parser (List Char)
  | [] => Option.none
  | c :: rest =>
    match fold with
    | .lineDue =>
      if c = ' ' || c = '\t' then basicLines .lineDue rest
      else if c = '\n' then basicLines .swallowing rest
      else if c = '\r' && rest.head? = some '\n' then basicLines .lineDue rest
      else Option.none
    | .swallowing =>
      if c = ' ' || c = '\t' || c = '\n' then basicLines .swallowing rest
      else if c = '\r' && rest.head? = some '\n' then basicLines .swallowing rest
      else basicText c rest
    | .none => basicText c rest
where
  basicText (c : Char) (rest : List Char) : Option (List Char × List Char) :=
    match c, rest with
    | '"', '"' :: '"' :: '"' :: '"' :: rest => some (['"', '"'], rest)
    | '"', '"' :: '"' :: '"' :: rest => some (['"'], rest)
    | '"', '"' :: '"' :: rest => some ([], rest)
    | '\\', 'u' :: a :: b :: c :: d :: rest => do
      let x ← numbered? [a, b, c, d]
      let (cs, rest) ← basicLines .none rest
      return (x :: cs, rest)
    | '\\', 'U' :: a :: b :: c :: d :: e :: f :: g :: h :: rest => do
      let x ← numbered? [a, b, c, d, e, f, g, h]
      let (cs, rest) ← basicLines .none rest
      return (x :: cs, rest)
    | '\\', c :: rest =>
      if c = ' ' || c = '\t' || c = '\n' || c = '\r' then basicLines .lineDue (c :: rest)
      else do
        let x ← simpleEscape? c
        let (cs, rest) ← basicLines .none rest
        return (x :: cs, rest)
    | '\r', '\n' :: rest => do
      let (cs, rest) ← basicLines .none rest
      return ('\n' :: cs, rest)
    | c, rest => do
      if (isPlain c && c ≠ '\\') || c = '\n' then
        let (cs, rest) ← basicLines .none rest
        return (c :: cs, rest)
      else Option.none

/-- The rest of a text in three single quotes. -/
def literalLines : Parser (List Char)
  | '\'' :: '\'' :: '\'' :: '\'' :: '\'' :: rest => some (['\'', '\''], rest)
  | '\'' :: '\'' :: '\'' :: '\'' :: rest => some (['\''], rest)
  | '\'' :: '\'' :: '\'' :: rest => some ([], rest)
  | '\r' :: '\n' :: rest => do
    let (cs, rest) ← literalLines rest
    return ('\n' :: cs, rest)
  | c :: rest => do
    if isPlain c || c = '\n' then
      let (cs, rest) ← literalLines rest
      return (c :: cs, rest)
    else none
  | [] => none

/-- A line end right after the opening quotes is no part of the text. -/
def afterOpening : List Char → List Char
  | '\n' :: rest => rest
  | '\r' :: '\n' :: rest => rest
  | cs => cs

/-- A text in quotes of any kind. -/
def quoted : Parser String := fun cs =>
  let body := match cs with
    | '"' :: '"' :: '"' :: rest => basicLines .none (afterOpening rest)
    | '\'' :: '\'' :: '\'' :: rest => literalLines (afterOpening rest)
    | '"' :: rest => basicBody rest
    | '\'' :: rest => literalBody rest
    | _ => none
  body.map fun (cs, rest) => (String.ofList cs, rest)

end Naming.Toml

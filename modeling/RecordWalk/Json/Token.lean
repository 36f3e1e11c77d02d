import RecordWalk.Json.Basic

/-!
# JSON tokens

JSON text is a sequence of tokens with blanks between them. `scan?` finds the tokens of a
text. A string token holds its pieces with all escapes resolved.
-/

namespace RecordWalk.Json

inductive Token where
  | null
  | bool (b : Bool)
  | number (literal : List Char)
  | string (s : JsonString)
  | openArray
  | closeArray
  | openObject
  | closeObject
  | colon
  | comma

def isSpace (c : Char) : Bool := c = ' ' || c = '\n' || c = '\t' || c = '\r'

/-! ## Numbers -/

/-- One or more digits, and what follows them. -/
def scanDigits? (cs : List Char) : Option (List Char × List Char) :=
  let ds := cs.takeWhile Char.isDigit
  if ds.isEmpty then none else some (ds, cs.dropWhile Char.isDigit)

/-- The whole part of a number, without superfluous zeros. -/
def scanWhole? : List Char → Option (List Char × List Char)
  | '0' :: cs => some (['0'], cs)
  | cs => scanDigits? cs

/-- The fraction of a number, if there is one. -/
def scanFraction? : List Char → Option (List Char × List Char)
  | '.' :: cs => (scanDigits? cs).map fun (ds, rest) => ('.' :: ds, rest)
  | cs => some ([], cs)

/-- The sign of a power of ten, if there is one. -/
def scanPowerSign : List Char → List Char × List Char
  | '+' :: cs => (['+'], cs)
  | '-' :: cs => (['-'], cs)
  | cs => ([], cs)

/-- The power of ten of a number, if there is one. -/
def scanPower? : List Char → Option (List Char × List Char)
  | [] => some ([], [])
  | c :: cs =>
    if c = 'e' || c = 'E' then
      let (sign, rest) := scanPowerSign cs
      (scanDigits? rest).map fun (ds, rest) => (c :: (sign ++ ds), rest)
    else some ([], c :: cs)

/-- An unsigned number. -/
def scanUnsigned? (cs : List Char) : Option (List Char × List Char) := do
  let (whole, cs) ← scanWhole? cs
  let (fraction, cs) ← scanFraction? cs
  let (power, cs) ← scanPower? cs
  some (whole ++ fraction ++ power, cs)

/-- A number. -/
def scanNumber? : List Char → Option (List Char × List Char)
  | '-' :: cs => (scanUnsigned? cs).map fun (literal, rest) => ('-' :: literal, rest)
  | cs => scanUnsigned? cs

/-! ## Strings -/

/-- The value of a hexadecimal digit. -/
def hexValue? (c : Char) : Option Nat :=
  if c.isDigit then some (c.toNat - '0'.toNat)
  else if 'a' ≤ c ∧ c ≤ 'f' then some (c.toNat - 'a'.toNat + 10)
  else if 'A' ≤ c ∧ c ≤ 'F' then some (c.toNat - 'A'.toNat + 10)
  else none

def hexValue4? (a b c d : Char) : Option Nat := do
  some (((← hexValue? a) * 16 + (← hexValue? b)) * 256 + (← hexValue? c) * 16 + (← hexValue? d))

/-- The piece that a code unit stands for. -/
def unitPiece (n : Nat) : StringPiece :=
  if JsonString.isHighSurrogate n || JsonString.isLowSurrogate n then .surrogate n
  else .char (Char.ofNat n)

/-- The character that a letter after a backslash stands for. -/
def escaped? (c : Char) : Option Char :=
  if c = '"' || c = '\\' || c = '/' then some c
  else if c = 'b' then some '\x08'
  else if c = 'f' then some '\x0c'
  else if c = 'n' then some '\n'
  else if c = 'r' then some '\r'
  else if c = 't' then some '\t'
  else none

/-- The pieces of a string up to its closing quote, and what follows it. -/
def scanPieces? : List Char → Option (JsonString × List Char)
  | [] => none
  | '"' :: cs => some ([], cs)
  | '\\' :: 'u' :: a :: b :: c :: d :: cs => do
    let n ← hexValue4? a b c d
    let (pieces, rest) ← scanPieces? cs
    some (unitPiece n :: pieces, rest)
  | '\\' :: e :: cs => do
    let c ← escaped? e
    let (pieces, rest) ← scanPieces? cs
    some (.char c :: pieces, rest)
  | c :: cs =>
    if c.toNat < 0x20 then none
    else (scanPieces? cs).map fun (pieces, rest) => (.char c :: pieces, rest)

/-! ## Texts -/

/-- The token at the start of a text, and what follows it. -/
def scanToken? : List Char → Option (Token × List Char)
  | '[' :: cs => some (.openArray, cs)
  | ']' :: cs => some (.closeArray, cs)
  | '\x7b' :: cs => some (.openObject, cs)
  | '\x7d' :: cs => some (.closeObject, cs)
  | ':' :: cs => some (.colon, cs)
  | ',' :: cs => some (.comma, cs)
  | 'n' :: 'u' :: 'l' :: 'l' :: cs => some (.null, cs)
  | 't' :: 'r' :: 'u' :: 'e' :: cs => some (.bool true, cs)
  | 'f' :: 'a' :: 'l' :: 's' :: 'e' :: cs => some (.bool false, cs)
  | '"' :: cs => (scanPieces? cs).map fun (pieces, rest) => (.string pieces, rest)
  | cs => (scanNumber? cs).map fun (literal, rest) => (.number literal, rest)

/-- The tokens of a text, in at most `fuel` steps. -/
def scanWithin? : Nat → List Char → Option (List Token)
  | _, [] => some []
  | 0, _ :: _ => none
  | fuel + 1, c :: cs =>
    if isSpace c then scanWithin? fuel cs
    else match scanToken? (c :: cs) with
      | none => none
      | some (token, rest) => (scanWithin? fuel rest).map (token :: ·)

/-- The tokens of a text; every step takes at least one character. -/
def scan? (cs : List Char) : Option (List Token) := scanWithin? cs.length cs

end RecordWalk.Json

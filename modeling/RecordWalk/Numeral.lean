import RecordWalk.Decimal.Basic

/-!
# Numerals

A text is read as a number in two steps. `Numeral.parse?` says which numeral the text is, after
white space is trimmed at both ends: nothing, a radix literal, or a signed `Infinity` or decimal
literal. `Numeral.value` is the double that a numeral denotes. A text that is no numeral reads as
NaN.

**Decimal literals** are `digits [. [digits]]` or `. digits`, with an optional power of ten, over
the ASCII digits. They are rounded once, from their exact value.

**Radix literals** take no sign. Their digits are accumulated in doubles, and each step rounds the
product and then the sum.
-/

namespace RecordWalk

/-- White space and line ends around a numeral. -/
def isBlank (c : Char) : Bool :=
  c.toNat ∈ [0x09, 0x0a, 0x0b, 0x0c, 0x0d, 0x20, 0xa0, 0x1680, 0x2028, 0x2029, 0x202f, 0x205f,
    0x3000, 0xfeff] ||
  (0x2000 ≤ c.toNat && c.toNat ≤ 0x200a)

/-- A text without the white space at its two ends. -/
def trimBlank (cs : List Char) : List Char :=
  ((cs.dropWhile isBlank).reverse.dropWhile isBlank).reverse

/-- The bases of radix literals. -/
inductive Radix where
  | binary | octal | hexadecimal
deriving DecidableEq

namespace Radix

def base : Radix → Nat
  | binary => 2
  | octal => 8
  | hexadecimal => 16

/-- The radix that a letter after a leading `0` announces. -/
def ofMark? (c : Char) : Option Radix :=
  if c = 'x' ∨ c = 'X' then some hexadecimal
  else if c = 'o' ∨ c = 'O' then some octal
  else if c = 'b' ∨ c = 'B' then some binary
  else none

/-- The value of an ASCII digit or letter as a digit of a large enough base. -/
def digitValue? (c : Char) : Option Nat :=
  if c.isDigit then some (c.toNat - '0'.toNat)
  else if 'a' ≤ c ∧ c ≤ 'z' then some (c.toNat - 'a'.toNat + 10)
  else if 'A' ≤ c ∧ c ≤ 'Z' then some (c.toNat - 'A'.toNat + 10)
  else none

/-- The value of a digit of the radix. -/
def digit? (r : Radix) (c : Char) : Option Nat :=
  (digitValue? c).filter (· < r.base)

/-- The values of a nonempty list of digits of the radix. -/
def digits? (r : Radix) (cs : List Char) : Option (List Nat) :=
  if cs.isEmpty then none else cs.mapM r.digit?

/-- The magnitude of a list of digits, rounded after each product and each sum. -/
def accumulate (r : Radix) (ds : List Nat) : Magnitude :=
  ds.foldl (fun m d => (m.scale r.base).add d) .zero

end Radix

/-- The natural number that a list of decimal digits denotes. -/
def digitsValue (cs : List Char) : Nat := Nat.ofDigitChars 10 cs 0

/-- The optional sign in front of a list of characters: whether it is negative, and what follows. -/
def splitSign : List Char → Bool × List Char
  | '+' :: cs => (false, cs)
  | '-' :: cs => (true, cs)
  | cs => (false, cs)

namespace Decimal

/-- The power of ten at the end of a decimal literal, if the whole text is one; nothing stands
for the power zero. -/
def parsePower? : List Char → Option Int
  | [] => some 0
  | c :: cs =>
    if c = 'e' ∨ c = 'E' then
      let (negative, ds) := splitSign cs
      if ds.isEmpty || !ds.all Char.isDigit then none
      else some (if negative then -(digitsValue ds : Int) else digitsValue ds)
    else none

/-- The digits after the point of a decimal literal, and what follows them. -/
def splitFraction : List Char → List Char × List Char
  | '.' :: cs => (cs.takeWhile Char.isDigit, cs.dropWhile Char.isDigit)
  | cs => ([], cs)

/-- The decimal that an unsigned decimal literal denotes. -/
def parse? (cs : List Char) : Option Decimal :=
  let whole := cs.takeWhile Char.isDigit
  let (fraction, rest) := splitFraction (cs.dropWhile Char.isDigit)
  if whole.isEmpty && fraction.isEmpty then none
  else (parsePower? rest).map fun power =>
    ⟨digitsValue (whole ++ fraction), power - fraction.length⟩

end Decimal

/-- What a text can say as a number. -/
inductive Numeral where
  | blank
  | radix (radix : Radix) (digits : List Nat)
  | infinity (negative : Bool)
  | decimal (negative : Bool) (magnitude : Decimal)

namespace Numeral

/-- The numeral with an optional sign that a text is. -/
def parseSigned? (cs : List Char) : Option Numeral :=
  let (negative, rest) := splitSign cs
  if rest = "Infinity".toList then some (infinity negative)
  else (Decimal.parse? rest).map (decimal negative)

/-- The numeral that a trimmed text is. -/
def parseTrimmed? : List Char → Option Numeral
  | [] => some blank
  | '0' :: c :: cs =>
    match Radix.ofMark? c with
    | some r => (r.digits? cs).map (radix r)
    | none => parseSigned? ('0' :: c :: cs)
  | cs => parseSigned? cs

/-- The numeral that a text is. -/
def parse? (s : String) : Option Numeral := parseTrimmed? (trimBlank s.toList)

/-- The double that a numeral denotes. -/
def value : Numeral → Double
  | blank => .zero
  | radix r ds => .signed false (r.accumulate ds)
  | infinity s => .signed s .infinity
  | decimal s d => .signed s d.round

end Numeral

/-- The double that a text reads as; NaN for what is no numeral. -/
def Double.read (s : String) : Double :=
  match Numeral.parse? s with
  | some n => n.value
  | none => .nan

end RecordWalk

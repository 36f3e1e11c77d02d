import RecordWalk.Numeral

/-!
# YAML values

A YAML value is null, a boolean, a number, a text, a list or a mapping with texts for keys. Which
of the first four a plain scalar stands for is told by its text; a quoted scalar is always a text.
Integers without a minus sign are kept apart from other numbers, as they may count things.

**Numbers.** A decimal number counts if a finite double can stand for it, and not if it has zeros
in front. A number with a radix mark counts if it fits in 128 bits, with the sign among them when
it is negative.
-/

namespace RecordWalk

inductive Yaml where
  | null
  | bool (b : Bool)
  | natural (n : Nat)
  | number (literal : String)
  | text (s : String)
  | list (items : List Yaml)
  | mapping (entries : List (String × Yaml))

namespace Yaml

/-! ## Plain scalars -/

def isNull (s : String) : Bool := ["~", "null", "Null", "NULL"].contains s

def bool? (s : String) : Option Bool :=
  if ["true", "True", "TRUE"].contains s then some true
  else if ["false", "False", "FALSE"].contains s then some false
  else none

/-- More than one digit with a zero in front, which is a text. -/
def isPadded (cs : List Char) : Bool := 1 < cs.length && cs.head? == some '0' && cs.all Char.isDigit

/-- The natural number that digits of a radix denote. -/
def radixValue? (r : Radix) (cs : List Char) : Option Nat :=
  (r.digits? cs).map fun ds => ds.foldl (fun n d => r.base * n + d) 0

/-- The value of an unsigned number with a radix mark. -/
def markedValue? : List Char → Option Nat
  | '0' :: 'x' :: cs => radixValue? .hexadecimal cs
  | '0' :: 'o' :: cs => radixValue? .octal cs
  | '0' :: 'b' :: cs => radixValue? .binary cs
  | _ => none

/-- The value of an unsigned decimal integer. -/
def decimalValue? (cs : List Char) : Option Nat :=
  if !cs.isEmpty && cs.all Char.isDigit && !isPadded cs then some (digitsValue cs) else none

/-- Whether an unsigned text is a decimal number that a finite double can stand for. -/
def isFiniteDecimal (cs : List Char) : Bool :=
  (Decimal.parse? cs).any fun d => d.round ≠ .infinity

/-- The value of an integer of at most 128 bits. -/
def integer? (s : String) : Option Yaml := do
  let (negative, body) := splitSign s.toList
  let n ← markedValue? body <|> decimalValue? body
  if negative then
    if n ≤ 1 <<< 127 then some (number s) else none
  else if n < 1 <<< 128 then some (natural n)
  else none

/-- Whether a text is a number that a double can stand for. -/
def isFloat (s : String) : Bool :=
  let body := (splitSign s.toList).2
  isFiniteDecimal body || [".inf", ".Inf", ".INF"].contains (String.ofList body) ||
    [".nan", ".NaN", ".NAN"].contains s

/-- The value of any number. -/
def float? (s : String) : Option Yaml := if isFloat s then some (number s) else none

/-- The value of a plain scalar that is a number. -/
def number? (s : String) : Option Yaml :=
  integer? s <|> if isPadded (splitSign s.toList).2 then none else float? s

/-- The value of a plain scalar. -/
def ofPlain (s : String) : Yaml :=
  if s.isEmpty || isNull s then null
  else ((bool? s).map bool <|> number? s).getD (text s)

/-! ## Decoding -/

def toBool? : Yaml → Option Bool
  | bool b => some b
  | _ => none

def toText? : Yaml → Option String
  | text s => some s
  | _ => none

def toList? {α : Type} (item? : Yaml → Option α) : Yaml → Option (List α)
  | list items => items.mapM item?
  | _ => none

/-- The value of a key; the last one of a repeated key counts. -/
def entry? (key : String) (entries : List (String × Yaml)) : Option Yaml :=
  entries.reverse.lookup key

/-- The first key of a mapping in the order of code points. -/
def leastKey? : List (String × Yaml) → Option String
  | [] => none
  | (key, _) :: rest =>
    match leastKey? rest with
    | some least => some (if least < key then least else key)
    | none => some key

/-- One of some things with names: a text names it, or the least key of a mapping, if its value is
null; a natural number counts it from zero. -/
def toNamed? {α : Type} (things : List α) (ofName? : String → Option α) : Yaml → Option α
  | text s => ofName? s
  | natural n => things[n]?
  | mapping entries => do
    let key ← leastKey? entries
    match entry? key entries with
    | some null => ofName? key
    | _ => none
  | _ => none

end Yaml

end RecordWalk

/-!
# JSON values

A JSON value as it is written: numbers keep their literal, and objects keep all members in order,
repeated names included. What to make of repeated or unknown members is for the one who decodes
the value.

A string may hold a surrogate without its partner. Such a string is no Unicode text; it is
admitted where a value is passed over, and refused where a text or the name of a member is wanted.
-/

namespace RecordWalk

/-- A part of a JSON string: a character, or an escaped surrogate. -/
inductive StringPiece where
  | char (c : Char)
  | surrogate (unit : Nat)

abbrev JsonString := List StringPiece

namespace JsonString

def ofText (s : String) : JsonString := s.toList.map .char

def isHighSurrogate (n : Nat) : Bool := 0xd800 ≤ n && n < 0xdc00

def isLowSurrogate (n : Nat) : Bool := 0xdc00 ≤ n && n < 0xe000

/-- The characters of a string whose surrogates all stand in pairs. -/
def chars? : JsonString → Option (List Char)
  | [] => some []
  | .char c :: pieces => (chars? pieces).map (c :: ·)
  | .surrogate h :: .surrogate l :: pieces =>
    if isHighSurrogate h && isLowSurrogate l then
      (chars? pieces).map (Char.ofNat (0x10000 + (h - 0xd800) * 0x400 + (l - 0xdc00)) :: ·)
    else none
  | .surrogate _ :: _ => none

/-- The text that a string is. -/
def toText? (s : JsonString) : Option String := (chars? s).map String.ofList

end JsonString

inductive Json where
  | null
  | bool (b : Bool)
  | number (literal : List Char)
  | string (s : JsonString)
  | array (items : List Json)
  | object (members : List (JsonString × Json))

namespace Json

/-- The number `n`. -/
def ofNat (n : Nat) : Json := number (Nat.toDigits 10 n)

/-- The string of a text. -/
def ofText (s : String) : Json := string (.ofText s)

/-- A string, or null for none. -/
def ofText? : Option String → Json
  | some s => ofText s
  | none => null

/-- The object of named values. -/
def ofMembers (members : List (String × Json)) : Json :=
  object (members.map fun (name, j) => (.ofText name, j))

/-! ## Decoding -/

def toBool? : Json → Option Bool
  | bool b => some b
  | _ => none

def toText? : Json → Option String
  | string s => s.toText?
  | _ => none

/-- A string, or null for none. -/
def toOptionalText? : Json → Option (Option String)
  | null => some none
  | j => j.toText?.map some

/-- A natural number written as such, below a bound. -/
def toNatBelow? (bound : Nat) : Json → Option Nat
  | number literal =>
    if literal.all Char.isDigit && Nat.ofDigitChars 10 literal 0 < bound then
      some (Nat.ofDigitChars 10 literal 0)
    else none
  | _ => none

/-- A name of something: a string, or an object with that one member, which is null. -/
def toNamed? {α : Type} (ofName? : String → Option α) : Json → Option α
  | string s => s.toText? >>= ofName?
  | object [(s, null)] => s.toText? >>= ofName?
  | _ => none

def toList? {α : Type} (item? : Json → Option α) : Json → Option (List α)
  | array items => items.mapM item?
  | _ => none

/-- The members of an object, if all names are texts. -/
def toMembers? : Json → Option (List (String × Json))
  | object members => members.mapM fun (name, j) => name.toText?.map (·, j)
  | _ => none

/-- How a member stands in an object. -/
inductive Occurrence where
  | missing
  | once (j : Json)
  | repeated

def occurrence (name : String) (members : List (String × Json)) : Occurrence :=
  match members.filter (·.1 == name) with
  | [] => .missing
  | [(_, j)] => .once j
  | _ => .repeated

/-- A member that has to be there. -/
def required? {α : Type} (name : String) (value? : Json → Option α)
    (members : List (String × Json)) : Option α :=
  match occurrence name members with
  | .once j => value? j
  | _ => none

/-- A member that may be left out. -/
def optional? {α : Type} (name : String) (default : α) (value? : Json → Option α)
    (members : List (String × Json)) : Option α :=
  match occurrence name members with
  | .missing => some default
  | .once j => value? j
  | .repeated => none

end Json

end RecordWalk

import RecordWalk.Json.Basic

/-!
# Writing JSON

JSON is written in one of two styles. The compact text has no blanks. The pretty text has each item
and member on a line of its own, indented by two blanks a level, and a blank after each colon; empty
arrays and objects stay on one line. A style is no more than what is put between the tokens.
-/

namespace RecordWalk.Json

/-- A code unit with four hexadecimal digits. -/
def unitEscape (n : Nat) : List Char :=
  ['\\', 'u', Nat.digitChar (n / 4096 % 16), Nat.digitChar (n / 256 % 16),
    Nat.digitChar (n / 16 % 16), Nat.digitChar (n % 16)]

/-- A character in a string. Controls are escaped, all else beyond quote and backslash stands for
itself. -/
def escapeChar (c : Char) : List Char :=
  if c = '"' then ['\\', '"']
  else if c = '\\' then ['\\', '\\']
  else if c = '\x08' then ['\\', 'b']
  else if c = '\x0c' then ['\\', 'f']
  else if c = '\n' then ['\\', 'n']
  else if c = '\r' then ['\\', 'r']
  else if c = '\t' then ['\\', 't']
  else if c.toNat < 0x20 then unitEscape c.toNat
  else [c]

def escapePiece : StringPiece → List Char
  | .char c => escapeChar c
  | .surrogate n => unitEscape n

def stringText (s : JsonString) : List Char := '"' :: (s.flatMap escapePiece ++ ['"'])

/-- The text of a value that holds no others. -/
def leafText : Json → List Char
  | null => "null".toList
  | bool b => (if b then "true" else "false").toList
  | number literal => literal
  | string s => stringText s
  | array _ => "[]".toList
  | object _ => ['\x7b', '\x7d']

/-! ## Styles -/

/-- What stands before an item or member at a level, and what after a colon. -/
structure Style where
  line : Nat → List Char
  gap : List Char

namespace Style

/-- No blanks at all. -/
def compact : Style := ⟨fun _ => [], []⟩

/-- A new line for each item and member, indented to its level. -/
def pretty : Style := ⟨fun level => '\n' :: List.replicate (2 * level) ' ', [' ']⟩

end Style

mutual

/-- The text of a value at a level. -/
def chars (style : Style) (level : Nat) : Json → List Char
  | array (item :: items) =>
    '[' :: (style.line (level + 1) ++ (chars style (level + 1) item ++ itemChars style level items))
  | object ((name, j) :: members) =>
    '\x7b' :: (style.line (level + 1) ++ (stringText name ++
      ':' :: (style.gap ++ (chars style (level + 1) j ++ memberChars style level members))))
  | j => leafText j

/-- The rest of an array at a level after an item. -/
def itemChars (style : Style) (level : Nat) : List Json → List Char
  | [] => style.line level ++ [']']
  | item :: items =>
    ',' :: (style.line (level + 1) ++ (chars style (level + 1) item ++ itemChars style level items))

/-- The rest of an object at a level after a member. -/
def memberChars (style : Style) (level : Nat) : List (JsonString × Json) → List Char
  | [] => style.line level ++ ['\x7d']
  | (name, j) :: members =>
    ',' :: (style.line (level + 1) ++ (stringText name ++
      ':' :: (style.gap ++ (chars style (level + 1) j ++ memberChars style level members))))

end

/-- The compact text. -/
def compact (j : Json) : String := String.ofList (j.chars .compact 0)

/-- The pretty text. -/
def pretty (j : Json) : String := String.ofList (j.chars .pretty 0)

end RecordWalk.Json

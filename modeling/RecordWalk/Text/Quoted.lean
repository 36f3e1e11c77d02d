import RecordWalk.Text.Unprintable

/-!
# Quoted text

Texts are quoted in messages and debug output: the text stands between double quotes, quotes and
backslashes in it get a backslash, and what would not show is written as an escape. Every
character is escaped by itself, so the quoted form of a text is the concatenation of the forms of
its characters.
-/

namespace RecordWalk

/-- The code point of a character in hexadecimal, between braces. -/
def escapeCodePoint (c : Char) : List Char :=
  '\\' :: 'u' :: '\x7b' :: (Nat.toDigits 16 c.toNat ++ ['\x7d'])

/-- A character as it stands between double quotes. -/
def escapeChar (c : Char) : List Char :=
  if c = '"' then ['\\', '"']
  else if c = '\\' then ['\\', '\\']
  else if c = '\n' then ['\\', 'n']
  else if c = '\r' then ['\\', 'r']
  else if c = '\t' then ['\\', 't']
  else if c = '\x00' then ['\\', '0']
  else if isUnprintable c then escapeCodePoint c
  else [c]

/-- A list of characters between double quotes. -/
def quoteChars (cs : List Char) : List Char := '"' :: (cs.flatMap escapeChar ++ ['"'])

/-- A text between double quotes. -/
def quote (s : String) : String := String.ofList (quoteChars s.toList)

end RecordWalk

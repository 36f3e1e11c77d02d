/-!
# Characters with their places

Indentation, line breaks and the length of a key matter in YAML, so a document is a list of
characters that know where they stand. All line breaks of ASCII and Latin-1 are one character, the
line feed, before places are counted; the Unicode separators of lines and paragraphs stay as they
are.
-/

namespace RecordWalk.Yaml

/-- A character and where it stands. -/
structure Spot where
  char : Char
  /-- The number of characters before it. -/
  index : Nat
  /-- The number of line breaks before it. -/
  line : Nat
  /-- The number of characters before it in its line. -/
  column : Nat

def byteOrderMark : Char := '\ufeff'

def isBlankChar (c : Char) : Bool := c = ' ' || c = '\t'

def isBreakChar (c : Char) : Bool := c = '\n' || c = '\u2028' || c = '\u2029'

/-- Whether a character may stand in a document at all. -/
def isAllowedChar (c : Char) : Bool :=
  c = '\t' || c = '\n' || c = '\r' || c = '\u0085' || (' ' ≤ c && c ≤ '~') ||
    (0xa0 ≤ c.toNat && c.toNat ≤ 0xfffd) || 0x10000 ≤ c.toNat

/-- One line feed for each line break of ASCII and Latin-1. -/
def unifyBreaks : List Char → List Char
  | [] => []
  | '\r' :: '\n' :: cs => '\n' :: unifyBreaks cs
  | c :: cs => (if c = '\r' || c = '\u0085' then '\n' else c) :: unifyBreaks cs

/-- Characters with their places, counted from the place of the first. -/
def spotsFrom (index line column : Nat) : List Char → List Spot
  | [] => []
  | c :: cs =>
    ⟨c, index, line, column⟩ ::
      if isBreakChar c then spotsFrom (index + 1) (line + 1) 0 cs
      else spotsFrom (index + 1) line (column + 1) cs

/-- The characters of a document without a byte order mark at its start, unless there is one that
may not stand in a document. -/
def spots? (cs : List Char) : Option (List Spot) :=
  if cs.all isAllowedChar then
    let cs := if cs.head? = some byteOrderMark then cs.tail else cs
    some (spotsFrom 0 0 0 (unifyBreaks cs))
  else none

def Spot.isBlank (c : Spot) : Bool := isBlankChar c.char

def Spot.isBreak (c : Spot) : Bool := isBreakChar c.char

/-- Whether a blank, a line break or the end of the document comes next. -/
def endsWord : List Spot → Bool
  | [] => true
  | c :: _ => c.isBlank || c.isBreak

/-- Whether a certain character comes next. -/
def startsWith (char : Char) : List Spot → Bool
  | [] => false
  | c :: _ => c.char = char

/-- Whether a line starts here with three times the same character, and nothing joined to it. -/
def isMark (char : Char) : List Spot → Bool
  | a :: b :: c :: cs =>
    a.column = 0 && a.char = char && b.char = char && c.char = char && endsWord cs
  | _ => false

/-- Whether the start or the end of a document is marked here. -/
def isDocumentMark (cs : List Spot) : Bool := isMark '-' cs || isMark '.' cs

end RecordWalk.Yaml

import RecordWalk.Yaml.Scalar

/-!
# YAML tokens

`Scan.tokens?` finds the tokens of a document. Besides what is written there are tokens for the
start and end of the lists and mappings that indentation makes.

**Blocks.** The scan keeps the columns of the open block collections, the innermost first. A list
item or a key further to the right opens a collection, and a token further to the left closes it.
Inside of flow collections indentation means nothing.

**Keys.** A scalar or flow collection turns out to be a key when a colon follows it. Where one may
be a key, its place among the tokens is kept as a *possible key*, one for each open flow
collection; at the colon the tokens for the key are inserted there. A key goes over no line break
and no more than 1024 characters. Where a key has to come, because a mapping goes on in that
column, a possible key that is given up is an error.
-/

namespace RecordWalk.Yaml

inductive Token where
  | version (supported : Bool)
  | tagHandle (handle value : String)
  | documentStart
  | documentEnd
  | blockListStart
  | blockMappingStart
  | blockEnd
  | flowListStart
  | flowListEnd
  | flowMappingStart
  | flowMappingEnd
  /-- The dash of a list item. -/
  | item
  /-- The comma of a flow collection. -/
  | comma
  | key
  | value
  | alias (name : String)
  | anchor (name : String)
  | tag (handle suffix : String)
  | scalar (plain : Bool) (text : String)
deriving DecidableEq

/-- The depth to which collections may nest. -/
def maxDepth : Nat := 128

/-- The place of something that may be a key. -/
structure PossibleKey where
  /-- The number of tokens before it. -/
  tokens : Nat
  spot : Spot
  /-- Whether a key has to stand there. -/
  required : Bool

/-- Whether a possible key is out of reach at a later character. -/
def PossibleKey.isStale (k : PossibleKey) (c : Spot) : Bool :=
  k.spot.line < c.line || k.spot.index + 1024 < c.index

structure Scan where
  rest : List Spot
  tokens : Array Token
  /-- The columns of the open block collections, the innermost first. -/
  columns : List Nat
  key? : Option PossibleKey
  /-- The possible keys outside of each open flow collection, the innermost first. -/
  outerKeys : List (Option PossibleKey)
  /-- Whether a key may start here. -/
  keyAllowed : Bool

namespace Scan

def start (cs : List Spot) : Scan := ⟨cs, #[], [], none, [], true⟩

def inFlow (s : Scan) : Bool := !s.outerKeys.isEmpty

/-- The least indentation of what belongs to the innermost block collection. -/
def level (s : Scan) : Nat :=
  match s.columns with
  | [] => 0
  | column :: _ => column + 1

/-- Whether one more collection may be opened. -/
def hasRoom (s : Scan) : Bool := s.columns.length + s.outerKeys.length < maxDepth

def push (s : Scan) (t : Token) : Scan := { s with tokens := s.tokens.push t }

def insert (s : Scan) (n : Nat) (t : Token) : Scan :=
  { s with tokens := s.tokens.insertIdxIfInBounds n t }

/-! ## Blocks -/

/-- Open a block collection at a column, unless there is one. -/
def openBlock (s : Scan) (column position : Nat) (t : Token) : Scan :=
  if s.inFlow || column < s.level then s
  else
    let s := s.insert position t
    { s with columns := column :: s.columns }

/-- Close the block collections to the right of a column. -/
def closeBlocks (s : Scan) (column : Nat) : Scan :=
  if s.inFlow then s
  else
    let inner := s.columns.takeWhile (column < ·)
    { s with
      columns := s.columns.dropWhile (column < ·)
      tokens := s.tokens ++ (inner.map fun _ => Token.blockEnd).toArray }

/-- Close all block collections. -/
def closeAllBlocks (s : Scan) : Scan :=
  if s.inFlow then s
  else
    let ends := s.columns.map fun _ => Token.blockEnd
    { s with columns := [], tokens := s.tokens ++ ends.toArray }

/-! ## Keys -/

/-- Give up the possible key. -/
def dropKey? (s : Scan) : Option Scan :=
  if s.key?.any PossibleKey.required then none else some { s with key? := none }

/-- Keep a character as the start of a possible key. -/
def saveKey? (s : Scan) (c : Spot) : Option Scan :=
  if s.keyAllowed then do
    let s ← s.dropKey?
    let required := !s.inFlow && s.level = c.column + 1
    some { s with key? := some ⟨s.tokens.size, c, required⟩ }
  else some s

/-- A possible key, unless it is out of reach at a character. -/
def expireKey? (c : Spot) (key? : Option PossibleKey) : Option (Option PossibleKey) :=
  match key? with
  | none => some none
  | some k => if k.isStale c then (if k.required then none else some none) else some (some k)

/-- Give up all possible keys that are out of reach at a character. -/
def expireKeys? (s : Scan) (c : Spot) : Option Scan := do
  let key? ← expireKey? c s.key?
  let outerKeys ← s.outerKeys.mapM (expireKey? c)
  some { s with key?, outerKeys }

/-! ## Between tokens -/

/-- Skip blanks, line breaks and comments, and tell whether a key may start after them. Outside of
flow collections a line break allows a key, and no tab stands where a key may start. -/
def skipGap (inFlow : Bool) : Bool → Bool → List Spot → Bool × List Spot
  | _, keyAllowed, [] => (keyAllowed, [])
  | inComment, keyAllowed, c :: cs =>
    if c.isBreak then skipGap inFlow false (keyAllowed || !inFlow) cs
    else if inComment then skipGap inFlow true keyAllowed cs
    else if c.char = ' ' || (c.char = '\t' && (inFlow || !keyAllowed)) ||
        (c.char = byteOrderMark && c.column = 0) then
      skipGap inFlow false keyAllowed cs
    else if c.char = '#' then skipGap inFlow true keyAllowed cs
    else (keyAllowed, c :: cs)

/-! ## Directives, anchors and tags -/

def isNameChar (c : Spot) : Bool := c.char.isAlphanum || c.char = '_' || c.char = '-'

/-- The longest text of certain characters, and what follows it. -/
def splitText (p : Spot → Bool) (cs : List Spot) : String × List Spot :=
  (String.ofList ((cs.takeWhile p).map Spot.char), cs.dropWhile p)

/-- The end of a line with nothing in it but blanks and a comment. -/
def lineEnd? (cs : List Spot) : Option (List Spot) :=
  let cs := cs.dropWhile Spot.isBlank
  let cs := if startsWith '#' cs then cs.dropWhile (!·.isBreak) else cs
  if endsWord cs then some (cs.drop 1) else none

/-- A version of the language in a directive; 1.1 and 1.2 are supported. -/
def version? (cs : List Spot) : Option (Token × List Spot) := do
  let (major, cs) := splitText (·.char.isDigit) (cs.dropWhile Spot.isBlank)
  let (minor, rest) := splitText (·.char.isDigit) (cs.drop 1)
  let fits (s : String) : Bool := 0 < s.length && s.length ≤ 9
  if startsWith '.' cs && fits major && fits minor then
    let number (s : String) : Nat := digitsValue s.toList
    some (.version (number major = 1 && (number minor = 1 || number minor = 2)), rest)
  else none

/-- A handle of tags: names between two exclamation marks, or one such mark alone. -/
def tagHandle? (cs : List Spot) : Option (String × List Spot) :=
  if startsWith '!' cs then
    let (name, rest) := splitText isNameChar (cs.drop 1)
    if startsWith '!' rest then some ("!" ++ name ++ "!", rest.drop 1) else some ("!" ++ name, rest)
  else none

/-- Whether a character may stand in a tag. -/
def isTagChar (verbatim : Bool) (c : Spot) : Bool :=
  isNameChar c || ";/?:@&=+$.!~*\x27()".toList.contains c.char ||
    (verbatim && [',', '[', ']'].contains c.char)

/-- What a handle of tags stands for, in a directive. -/
def tagDirective? (cs : List Spot) : Option (Token × List Spot) := do
  let (handle, cs) ← tagHandle? (cs.dropWhile Spot.isBlank)
  let (value, rest) := splitText (isTagChar true) (cs.dropWhile Spot.isBlank)
  if (handle = "!" || handle.endsWith "!") && cs.head?.any Spot.isBlank && !value.isEmpty &&
      endsWord rest then
    some (.tagHandle handle value, rest)
  else none

/-- A directive after its mark. -/
def directive? (cs : List Spot) : Option (Token × List Spot) := do
  let (name, cs) := splitText isNameChar cs
  let (t, cs) ←
    if !endsWord cs then none
    else if name = "YAML" then version? cs
    else if name = "TAG" then tagDirective? cs
    else none
  let rest ← lineEnd? cs
  some (t, rest)

/-- The name of an anchor or alias. -/
def anchorName? (cs : List Spot) : Option (String × List Spot) :=
  let (name, rest) := splitText isNameChar cs
  let ends := endsWord rest ||
    rest.head?.any fun c => ['?', ':', ',', ']', '\x7d', '%', '@', '\x60'].contains c.char
  if name.isEmpty || !ends then none else some (name, rest)

/-- A tag between angle brackets, after the opening one. -/
def verbatimTag? (cs : List Spot) : Option (Token × List Spot) :=
  let (name, rest) := splitText (isTagChar true) cs
  if name.isEmpty || !startsWith '>' rest then none else some (.tag "" name, rest.drop 1)

/-- A tag with a handle, or with an exclamation mark in front. -/
def shortTag? (cs : List Spot) : Option (Token × List Spot) := do
  let (handle, rest) ← tagHandle? cs
  let (suffix, after) := splitText (isTagChar false) rest
  if 1 < handle.length && handle.endsWith "!" then
    if suffix.isEmpty then none else some (.tag handle suffix, after)
  else
    let name := String.ofList (handle.toList.drop 1) ++ suffix
    some (if name.isEmpty then .tag "" "!" else .tag "!" name, after)

/-- A tag, which a blank has to follow, or a comma in a flow collection. -/
def tag? (inFlow : Bool) (cs : List Spot) : Option (Token × List Spot) := do
  let (t, rest) ← if startsWith '<' (cs.drop 1) then verbatimTag? (cs.drop 2) else shortTag? cs
  if endsWord rest || (inFlow && startsWith ',' rest) then some (t, rest) else none

/-! ## Scanning -/

/-- A token that is a single mark, and that no possible key survives. -/
def mark? (s : Scan) (t : Token) (width : Nat) (keyAllowed : Bool) : Option Scan := do
  let s ← s.dropKey?
  let s := s.push t
  some { s with rest := s.rest.drop width, keyAllowed }

/-- The start or end of a document. -/
def documentMark? (s : Scan) (t : Token) : Option Scan := s.closeAllBlocks.mark? t 3 false

/-- The start of a flow collection, which may be a key. -/
def openFlow? (s : Scan) (c : Spot) (t : Token) : Option Scan := do
  let s ← if s.hasRoom then s.saveKey? c else none
  let s := s.push t
  some { s with
    rest := s.rest.drop 1, keyAllowed := true, key? := none, outerKeys := s.key? :: s.outerKeys }

/-- The end of a flow collection; the possible key outside of it is in reach again. -/
def closeFlow? (s : Scan) (t : Token) : Option Scan := do
  let s ← s.mark? t 1 false
  match s.outerKeys with
  | [] => some s
  | key? :: outerKeys => some { s with key?, outerKeys }

/-- The mark of a list item or of a key, which opens a block collection. -/
def blockMark? (s : Scan) (c : Spot) (opening t : Token) (keyAllowed : Bool) : Option Scan :=
  if !s.inFlow && !s.keyAllowed then none
  else (s.openBlock c.column s.tokens.size opening).mark? t 1 keyAllowed

/-- The colon after a key. -/
def value? (s : Scan) (c : Spot) : Option Scan :=
  match s.key? with
  | some k =>
    let s := (s.insert k.tokens .key).openBlock k.spot.column k.tokens .blockMappingStart
    let s := s.push .value
    some { s with rest := s.rest.drop 1, key? := none, keyAllowed := false }
  | none => s.blockMark? c .blockMappingStart .value (!s.inFlow)

/-- Something that may be a key, or be part of one. -/
def node? (s : Scan) (c : Spot) (read? : Option (Token × List Spot)) : Option Scan := do
  let s ← s.saveKey? c
  let (t, rest) ← read?
  some { s.push t with rest, keyAllowed := false }

/-- A scalar in quotes. -/
def quoted? (s : Scan) (c : Spot) (read? : Option (List Char × List Spot)) : Option Scan :=
  s.node? c (read?.map fun (content, rest) => (.scalar false (String.ofList content), rest))

/-- A plain scalar; a line break at its end allows a key. -/
def plain? (s : Scan) (c : Spot) : Option Scan := do
  let s ← s.saveKey? c
  let (content, gap, rest) ← plainRest? s.inFlow s.level .empty s.rest
  some { s.push (.scalar true (String.ofList content)) with rest, keyAllowed := gap.hasBreak }

/-- A block scalar. -/
def block? (s : Scan) (folded : Bool) : Option Scan := do
  let s ← s.dropKey?
  let (content, rest) ← blockScalar? folded s.level (s.rest.drop 1)
  some { s.push (.scalar false (String.ofList content)) with rest, keyAllowed := true }

/-- The directive in a line. -/
def directiveLine? (s : Scan) : Option Scan := do
  let s ← s.closeAllBlocks.dropKey?
  let (t, rest) ← directive? (s.rest.drop 1)
  some { s.push t with rest, keyAllowed := false }

/-- The token that starts with a character. -/
def token? (s : Scan) (c : Spot) (cs : List Spot) : Option Scan :=
  if c.char = '%' && c.column = 0 then s.directiveLine?
  else if isMark '-' s.rest then s.documentMark? .documentStart
  else if isMark '.' s.rest then s.documentMark? .documentEnd
  else match c.char with
    | '[' => s.openFlow? c .flowListStart
    | '\x7b' => s.openFlow? c .flowMappingStart
    | ']' => s.closeFlow? .flowListEnd
    | '\x7d' => s.closeFlow? .flowMappingEnd
    | ',' => s.mark? .comma 1 true
    | '-' => if endsWord cs then s.blockMark? c .blockListStart .item true else s.plain? c
    | '?' =>
      if s.inFlow || endsWord cs then s.blockMark? c .blockMappingStart .key (!s.inFlow)
      else s.plain? c
    | ':' => if s.inFlow || endsWord cs then s.value? c else s.plain? c
    | '*' => s.node? c ((anchorName? cs).map fun (name, rest) => (.alias name, rest))
    | '&' => s.node? c ((anchorName? cs).map fun (name, rest) => (.anchor name, rest))
    | '!' => s.node? c (tag? s.inFlow s.rest)
    | '|' => if s.inFlow then none else s.block? false
    | '>' => if s.inFlow then none else s.block? true
    | '\x27' => s.quoted? c (singleQuotedRest? .empty cs)
    | '"' => s.quoted? c (doubleQuotedRest? .empty cs)
    | char => if ['\t', '#', '%', '@', '\x60'].contains char then none else s.plain? c

/-- All tokens from here on, in at most `fuel` steps. -/
def run? : Nat → Scan → Option (Array Token)
  | 0, _ => none
  | fuel + 1, s =>
    let (keyAllowed, rest) := skipGap s.inFlow false s.keyAllowed s.rest
    let s := { s with keyAllowed, rest }
    match rest with
    | [] => s.closeAllBlocks.dropKey?.map Scan.tokens
    | c :: cs => do
      let s ← s.expireKeys? c
      let s ← (s.closeBlocks c.column).token? c cs
      run? fuel s

/-- The tokens of a document; every step but the last takes at least one character. -/
def tokens? (cs : List Spot) : Option (List Token) :=
  (run? (cs.length + 1) (start cs)).map Array.toList

end Scan

end RecordWalk.Yaml

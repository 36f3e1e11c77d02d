import RecordWalk.Numeral
import RecordWalk.Yaml.Spot

/-!
# YAML scalars

Plain and quoted scalars may go over several lines. What stands between two words, a *gap*, is
blanks or line breaks with blanks around them. A gap of blanks is kept. Of line breaks, a single
one becomes a blank, and of several the first is dropped. An escaped line break is dropped in any
case.

Block scalars keep their line breaks, or fold them the same way. They reach as far as the lines
are indented; how many of the line breaks at the end belong to them is told in front.

All readers give what they read, with what follows it.
-/

namespace RecordWalk.Yaml

/-! ## Gaps -/

/-- What stands between two words of a scalar. -/
inductive Gap where
  | blanks (cs : List Char)
  /-- A line break and those after it. -/
  | breaks (first : Char) (more : List Char)
  /-- The line breaks after an escaped one. -/
  | escaped (more : List Char)

namespace Gap

def empty : Gap := blanks []

def isEmpty : Gap → Bool
  | blanks cs => cs.isEmpty
  | _ => false

def hasBreak : Gap → Bool
  | blanks _ => false
  | _ => true

/-- A gap and a blank after it; blanks around line breaks do not count. -/
def addBlank (c : Char) : Gap → Gap
  | blanks cs => blanks (cs ++ [c])
  | g => g

/-- A gap and a line break after it. -/
def addBreak (b : Char) : Gap → Gap
  | blanks _ => breaks b []
  | breaks first more => breaks first (more ++ [b])
  | escaped more => escaped (more ++ [b])

/-- A line break and those after it, folded; only line feeds fold. -/
def fold (first : Char) (more : List Char) : List Char :=
  if first = '\n' then (if more.isEmpty then [' '] else more) else first :: more

/-- What a scalar holds for a gap. -/
def text : Gap → List Char
  | blanks cs => cs
  | breaks first more => fold first more
  | escaped more => more

end Gap

/-! ## Plain scalars -/

def isFlowMark (c : Char) : Bool := [',', '[', ']', '\x7b', '\x7d'].contains c

/-- Whether a colon in a flow collection is followed by what may not follow it. -/
def isMisplacedColon (c : Spot) : List Spot → Bool
  | [] => false
  | d :: _ => c.char = ':' && (isFlowMark d.char || d.char = '?')

/-- Whether a plain scalar ends before a character within a line. -/
def endsPlain (inFlow : Bool) (c : Spot) (cs : List Spot) : Bool :=
  (c.char = ':' && endsWord cs) || (inFlow && isFlowMark c.char)

/-- Whether a plain scalar ends before a character that comes after a gap. -/
def endsPlainAfterGap (inFlow : Bool) (level : Nat) (c : Spot) (cs : List Spot) : Bool :=
  c.char = '#' || isDocumentMark (c :: cs) || (!inFlow && c.column < level)

/-- The rest of a plain scalar after a gap, and the gap at its end. Its lines are indented by at
least `level` outside of flow collections, and nowhere with tabs in place of that. -/
def plainRest? (inFlow : Bool) (level : Nat) :
    Gap → List Spot → Option (List Char × Gap × List Spot)
  | gap, [] => some ([], gap, [])
  | gap, c :: cs =>
    if c.isBlank then
      if c.char = '\t' && gap.hasBreak && c.column < level then none
      else plainRest? inFlow level (gap.addBlank c.char) cs
    else if c.isBreak then plainRest? inFlow level (gap.addBreak c.char) cs
    else if !gap.isEmpty && endsPlainAfterGap inFlow level c cs then some ([], gap, c :: cs)
    else if inFlow && isMisplacedColon c cs then none
    else if endsPlain inFlow c cs then some ([], gap, c :: cs)
    else do
      let (chars, last, rest) ← plainRest? inFlow level .empty cs
      some (gap.text ++ c.char :: chars, last, rest)

/-! ## Quoted scalars -/

/-- The character that a letter after a backslash stands for. -/
def escaped? (c : Char) : Option Char :=
  [('0', '\x00'), ('a', '\x07'), ('b', '\x08'), ('t', '\t'), ('\t', '\t'), ('n', '\n'),
    ('v', '\x0b'), ('f', '\x0c'), ('r', '\r'), ('e', '\x1b'), (' ', ' '), ('"', '"'), ('/', '/'),
    ('\\', '\\'), ('N', '\u0085'), ('_', '\u00a0'), ('L', '\u2028'), ('P', '\u2029')].lookup c

/-- The number of hexadecimal digits after a letter that introduces a code point. -/
def codeDigits? (c : Char) : Option Nat := [('x', 2), ('u', 4), ('U', 8)].lookup c

/-- The character with a code point of so many hexadecimal digits. -/
def codePoint? (count : Nat) (cs : List Char) : Option Char := do
  let ds ← Radix.hexadecimal.digits? cs
  let n := ds.foldl (fun n d => 16 * n + d) 0
  if ds.length = count && n.isValidChar then some (Char.ofNat n) else none

/-- The character that an escape stands for, and the number of characters after its letter. -/
def escape? (letter : Char) (cs : List Spot) : Option (Char × Nat) :=
  match escaped? letter with
  | some e => some (e, 0)
  | none => do
    let count ← codeDigits? letter
    let e ← codePoint? count ((cs.take count).map Spot.char)
    some (e, count)

/-- The rest of a scalar in single quotes after a gap; a quote in it is written twice. -/
def singleQuotedRest? : Gap → List Spot → Option (List Char × List Spot)
  | _, [] => none
  | gap, c :: cs =>
    if c.isBlank then singleQuotedRest? (gap.addBlank c.char) cs
    else if c.isBreak then singleQuotedRest? (gap.addBreak c.char) cs
    else if isDocumentMark (c :: cs) then none
    else if c.char = '\x27' then
      match cs with
      | [] => some (gap.text, [])
      | d :: ds =>
        if d.char = '\x27' then
          (singleQuotedRest? .empty ds).map fun (chars, rest) => (gap.text ++ '\x27' :: chars, rest)
        else some (gap.text, d :: ds)
    else (singleQuotedRest? .empty cs).map fun (chars, rest) => (gap.text ++ c.char :: chars, rest)

/-- The rest of a scalar in double quotes after a gap; a backslash in it escapes. -/
def doubleQuotedRest? : Gap → List Spot → Option (List Char × List Spot)
  | _, [] => none
  | gap, c :: cs =>
    if c.isBlank then doubleQuotedRest? (gap.addBlank c.char) cs
    else if c.isBreak then doubleQuotedRest? (gap.addBreak c.char) cs
    else if isDocumentMark (c :: cs) then none
    else if c.char = '"' then some (gap.text, cs)
    else if c.char = '\\' then
      match cs with
      | [] => none
      | d :: ds =>
        if d.isBreak then
          (doubleQuotedRest? (.escaped []) ds).map fun (chars, rest) => (gap.text ++ chars, rest)
        else do
          let (e, count) ← escape? d.char ds
          let (chars, rest) ← doubleQuotedRest? .empty (ds.drop count)
          some (gap.text ++ e :: chars, rest)
    else (doubleQuotedRest? .empty cs).map fun (chars, rest) => (gap.text ++ c.char :: chars, rest)
termination_by _ cs => cs.length
decreasing_by all_goals simp only [List.length_cons, List.length_drop]; omega

/-! ## Block scalars -/

/-- Which line breaks at its end belong to a block scalar: none, the first, or all. -/
inductive Chomping where
  | strip | clip | keep
deriving DecidableEq

def splitChomping : List Spot → Chomping × List Spot
  | [] => (.clip, [])
  | c :: cs =>
    if c.char = '+' then (.keep, cs) else if c.char = '-' then (.strip, cs) else (.clip, c :: cs)

/-- The indentation that the head of a block scalar asks for; zero if it leaves that open. -/
def splitIncrement? : List Spot → Option (Nat × List Spot)
  | [] => some (0, [])
  | c :: cs =>
    if c.char = '0' then none
    else if c.char.isDigit then some (c.char.toNat - '0'.toNat, cs)
    else some (0, c :: cs)

/-- The head of a block scalar up to the end of its line. -/
def blockHead? (cs : List Spot) : Option (Chomping × Nat × List Spot) := do
  let (first, cs) := splitChomping cs
  let (increment, cs) ← splitIncrement? cs
  let (second, cs) := if first = .clip && increment ≠ 0 then splitChomping cs else (first, cs)
  let cs := cs.dropWhile Spot.isBlank
  let cs := if startsWith '#' cs then cs.dropWhile (!·.isBreak) else cs
  match cs with
  | [] => some (second, increment, [])
  | c :: cs => if c.isBreak then some (second, increment, cs) else none

/-- The line breaks at the start of a block scalar, and the indentation of its first line; spaces in
empty lines before it count, too. -/
def blockStart? : List Spot → Option (List Char × Nat × List Spot)
  | [] => some ([], 0, [])
  | c :: cs =>
    if c.char = ' ' then blockStart? cs
    else if c.char = '\t' then none
    else if c.isBreak then do
      let (breaks, column, rest) ← blockStart? cs
      some (c.char :: breaks, max c.column column, rest)
    else some ([], c.column, c :: cs)

/-- The line breaks before the next line of a block scalar, without indentation. -/
def blockBreaks? (indent : Nat) : List Spot → Option (List Char × List Spot)
  | [] => some ([], [])
  | c :: cs =>
    if c.char = ' ' && c.column < indent then blockBreaks? indent cs
    else if c.char = '\t' && c.column < indent then none
    else if c.isBreak then
      (blockBreaks? indent cs).map fun (breaks, rest) => (c.char :: breaks, rest)
    else some ([], c :: cs)

/-- The line break at the start of some characters, if there is one. -/
def splitBreak : List Spot → List Char × List Spot
  | [] => ([], [])
  | c :: cs => if c.isBreak then ([c.char], cs) else ([], c :: cs)

/-- The lines of a block scalar after a line break, which is missing at its start, and others after
that. In a folded scalar the line break is folded, unless it is next to a line that starts with a
blank. -/
def blockLines? (folded : Bool) (indent : Nat) (chomping : Chomping) :
    Nat → List Char → List Char → Bool → List Spot → Option (List Char × List Spot)
  | 0, _, _, _, _ => none
  | fuel + 1, first, more, afterBlank, cs =>
    match cs with
    | c :: _ =>
      if c.column = indent then do
        let joint :=
          if folded && first = ['\n'] && !afterBlank && !c.isBlank then
            (if more.isEmpty then [' '] else more)
          else first ++ more
        let line := cs.takeWhile (!·.isBreak)
        let (first, rest) := splitBreak (cs.dropWhile (!·.isBreak))
        let (more, rest) ← blockBreaks? indent rest
        let (chars, rest) ← blockLines? folded indent chomping fuel first more c.isBlank rest
        some (joint ++ line.map Spot.char ++ chars, rest)
      else some (blockTail first more, cs)
    | [] => some (blockTail first more, [])
where
  /-- What a block scalar holds of the line breaks at its end. -/
  blockTail (first more : List Char) : List Char :=
    match chomping with
    | .strip => []
    | .clip => first
    | .keep => first ++ more

/-- A block scalar after its mark, in a block with a certain level of indentation. -/
def blockScalar? (folded : Bool) (level : Nat) (cs : List Spot) :
    Option (List Char × List Spot) := do
  let (chomping, increment, cs) ← blockHead? cs
  if increment = 0 then
    let (breaks, column, rest) ← blockStart? cs
    blockLines? folded (max (max column level) 1) chomping (cs.length + 1) [] breaks false rest
  else
    let indent := level - 1 + increment
    let (breaks, rest) ← blockBreaks? indent cs
    blockLines? folded indent chomping (cs.length + 1) [] breaks false rest

end RecordWalk.Yaml

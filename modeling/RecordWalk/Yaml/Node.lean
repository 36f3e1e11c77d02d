import RecordWalk.Yaml.Token

/-!
# YAML nodes

The tree that the tokens of a document describe, with its anchors, aliases and tags. A node that
is left out is an empty plain scalar.

`Node.ofTokens?` reads a single document; the depth of its recursion is bounded by the number of
tokens.
-/

namespace RecordWalk.Yaml

/-- What may stand in front of a node. -/
structure Properties where
  anchor? : Option String
  tag? : Option String

inductive Node where
  | alias (name : String)
  | scalar (properties : Properties) (plain : Bool) (text : String)
  | list (properties : Properties) (items : List Node)
  | mapping (properties : Properties) (entries : List (Node × Node))

namespace Node

/-- A node that is left out. -/
def empty : Node := scalar ⟨none, none⟩ true ""

/-- Whether one of certain tokens comes next. -/
def isNext (expected : List Token) : List Token → Bool
  | [] => false
  | t :: _ => expected.contains t

/-! ## Properties -/

/-- What handles of tags stand for. -/
abbrev Handles := List (String × String)

/-- The handles that need no directive. -/
def standardHandles : Handles := [("!", "!"), ("!!", "tag:yaml.org,2002:")]

/-- The tag of a token. -/
def tagName? (handles : Handles) (handle suffix : String) : Option String :=
  if handle.isEmpty then some suffix else (handles.lookup handle).map (· ++ suffix)

/-- The properties in front of a node, in either order. -/
def properties? (handles : Handles) : List Token → Option (Properties × List Token)
  | .anchor a :: .tag h s :: ts => (tagName? handles h s).map fun t => (⟨some a, some t⟩, ts)
  | .tag h s :: .anchor a :: ts => (tagName? handles h s).map fun t => (⟨some a, some t⟩, ts)
  | .anchor a :: ts => some (⟨some a, none⟩, ts)
  | .tag h s :: ts => (tagName? handles h s).map fun t => (⟨none, some t⟩, ts)
  | ts => some (⟨none, none⟩, ts)

/-- The properties of a scalar; the tag `!` says nothing. -/
def Properties.ofScalar (p : Properties) : Properties :=
  if p.tag? = some "!" then { p with tag? := none } else p

/-! ## Reading -/

mutual

/-- A node; in a block it may be a block collection, and in a mapping a list whose items stand as
deep as the keys. -/
def read? (handles : Handles) :
    Nat → Bool → Bool → List Token → Option (Node × List Token)
  | 0, _, _, _ => none
  | _ + 1, _, _, .alias name :: ts => some (.alias name, ts)
  | fuel + 1, inBlock, inMapping, ts => do
    let (p, ts) ← properties? handles ts
    match ts with
    | .scalar plain s :: ts => some (.scalar (Properties.ofScalar p) plain s, ts)
    | .flowListStart :: ts => do
      let (items, ts) ← readFlowItems? handles fuel true ts
      some (.list p items, ts)
    | .flowMappingStart :: ts => do
      let (entries, ts) ← readFlowEntries? handles fuel true ts
      some (.mapping p entries, ts)
    | ts =>
      if inMapping && isNext [.item] ts then do
        let (items, ts) ← readLevelItems? handles fuel ts
        some (.list p items, ts)
      else if inBlock && isNext [.blockListStart] ts then do
        let (items, ts) ← readItems? handles fuel ts.tail
        some (.list p items, ts)
      else if inBlock && isNext [.blockMappingStart] ts then do
        let (entries, ts) ← readEntries? handles fuel ts.tail
        some (.mapping p entries, ts)
      else if p.anchor?.isSome || p.tag?.isSome then some (.scalar p true "", ts)
      else none

/-- A node, unless one of certain tokens shows that it is left out. -/
def readUnless? (handles : Handles) :
    Nat → List Token → Bool → Bool → List Token → Option (Node × List Token)
  | 0, _, _, _, _ => none
  | fuel + 1, omitting, inBlock, inMapping, ts =>
    if isNext omitting ts then some (.empty, ts) else read? handles fuel inBlock inMapping ts

/-- The items of a block list. -/
def readItems? (handles : Handles) : Nat → List Token → Option (List Node × List Token)
  | fuel + 1, .item :: ts => do
    let (item, ts) ← readUnless? handles fuel [.item, .blockEnd] true false ts
    let (items, ts) ← readItems? handles fuel ts
    some (item :: items, ts)
  | _, .blockEnd :: ts => some ([], ts)
  | _, _ => none

/-- The items of a list as deep as the mapping around it. -/
def readLevelItems? (handles : Handles) : Nat → List Token → Option (List Node × List Token)
  | fuel + 1, .item :: ts => do
    let (item, ts) ← readUnless? handles fuel [.item, .key, .value, .blockEnd] true false ts
    let (items, ts) ← readLevelItems? handles fuel ts
    some (item :: items, ts)
  | 0, .item :: _ => none
  | _, ts => some ([], ts)

/-- The entries of a block mapping. -/
def readEntries? (handles : Handles) :
    Nat → List Token → Option (List (Node × Node) × List Token)
  | fuel + 1, .key :: ts => do
    let (k, ts) ← readUnless? handles fuel [.key, .value, .blockEnd] true true ts
    let (v, ts) ← readValue? handles fuel [.key, .value, .blockEnd] true ts
    let (entries, ts) ← readEntries? handles fuel ts
    some ((k, v) :: entries, ts)
  | _, .blockEnd :: ts => some ([], ts)
  | _, _ => none

/-- The value after a key, which may be left out with its colon. -/
def readValue? (handles : Handles) :
    Nat → List Token → Bool → List Token → Option (Node × List Token)
  | fuel + 1, omitting, inBlock, .value :: ts =>
    readUnless? handles fuel omitting inBlock inBlock ts
  | 0, _, _, .value :: _ => none
  | _, _, _, ts => some (.empty, ts)

/-- The items of a flow list. A key makes an item that is a mapping with one entry; where it is
left out, the token that shows that is lost. -/
def readFlowItems? (handles : Handles) :
    Nat → Bool → List Token → Option (List Node × List Token)
  | 0, _, _ => none
  | _ + 1, _, .flowListEnd :: ts => some ([], ts)
  | fuel + 1, isFirst, ts => do
    let ts ← afterComma? isFirst ts
    match ts with
    | .flowListEnd :: ts => some ([], ts)
    | .key :: ts => do
      let (k, ts) ←
        if isNext [.value, .comma, .flowListEnd] ts then some (.empty, ts.tail)
        else read? handles fuel false false ts
      let (v, ts) ← readValue? handles fuel [.comma, .flowListEnd] false ts
      let (items, ts) ← readFlowItems? handles fuel false ts
      some (.mapping ⟨none, none⟩ [(k, v)] :: items, ts)
    | ts => do
      let (item, ts) ← read? handles fuel false false ts
      let (items, ts) ← readFlowItems? handles fuel false ts
      some (item :: items, ts)

/-- The entries of a flow mapping; a key may stand without a value. -/
def readFlowEntries? (handles : Handles) :
    Nat → Bool → List Token → Option (List (Node × Node) × List Token)
  | 0, _, _ => none
  | _ + 1, _, .flowMappingEnd :: ts => some ([], ts)
  | fuel + 1, isFirst, ts => do
    let ts ← afterComma? isFirst ts
    match ts with
    | .flowMappingEnd :: ts => some ([], ts)
    | .key :: ts => do
      let (k, ts) ← readUnless? handles fuel [.value, .comma, .flowMappingEnd] false false ts
      let (v, ts) ← readValue? handles fuel [.comma, .flowMappingEnd] false ts
      let (entries, ts) ← readFlowEntries? handles fuel false ts
      some ((k, v) :: entries, ts)
    | ts => do
      let (k, ts) ← read? handles fuel false false ts
      let (entries, ts) ← readFlowEntries? handles fuel false ts
      some ((k, .empty) :: entries, ts)

/-- What follows the comma in front of all but the first part of a flow collection. -/
def afterComma? : Bool → List Token → Option (List Token)
  | true, ts => some ts
  | false, .comma :: ts => some ts
  | false, _ => none

end

/-! ## Documents -/

/-- The directives in front of a document: at most one version, which has to be supported, and no
handle twice. -/
def directives? : Bool → Handles → List Token → Option (Handles × List Token)
  | hasVersion, handles, .version supported :: ts =>
    if hasVersion || !supported then none else directives? true handles ts
  | hasVersion, handles, .tagHandle handle value :: ts =>
    if (handles.lookup handle).isSome then none
    else directives? hasVersion ((handle, value) :: handles) ts
  | _, handles, ts => some (handles, ts)

def isDirective : Token → Bool
  | .version _ => true
  | .tagHandle _ _ => true
  | _ => false

/-- The content of a document after its start is marked. -/
def readContent? (handles : Handles) (fuel : Nat) (ts : List Token) : Option (Node × List Token) :=
  match ts with
  | [] => some (.empty, [])
  | t :: _ =>
    if isDirective t || t = .documentStart || t = .documentEnd then some (.empty, ts)
    else read? handles fuel true false ts

/-- A document with its directives and the mark of its start, or without both. -/
def readDocument? (ts : List Token) : Option (Node × List Token) :=
  let fuel := 4 * ts.length + 4
  match ts with
  | [] => some (.empty, [])
  | t :: _ =>
    if isDirective t || t = .documentStart then do
      let (handles, ts) ← directives? false [] ts
      match ts with
      | .documentStart :: ts => readContent? (handles ++ standardHandles) fuel ts
      | _ => none
    else read? standardHandles fuel true false ts

/-- The node of a stream of one document, or of none. -/
def ofTokens? (ts : List Token) : Option Node := do
  let (node, rest) ← readDocument? ts
  if rest.all (· = .documentEnd) then some node else none

end Node

end RecordWalk.Yaml

import RecordWalk.Yaml.Basic
import RecordWalk.Yaml.Node

/-!
# YAML documents

`Yaml.document?` reads a text as a mapping. The value of a scalar is told by its tag, if it has
one, and else by its text; a tag of the document's own has no value. An alias stands for the node
with its anchor, as it was last defined. Keys are taken as texts, whatever they look like.

Collections nest up to a limit, counted through aliases.
-/

namespace RecordWalk.Yaml

/-- What a node stands for. -/
structure Meaning where
  /-- Its value, if it has one. -/
  value? : Option Yaml
  /-- The depth to which collections nest in it. -/
  height : Nat
  /-- Its text as a key, if it is a scalar. -/
  key? : Option String

/-- The meanings of the nodes with an anchor, the latest first; a node that is not yet complete has
none. -/
abbrev Anchors := List (String × Option Meaning)

namespace Anchors

/-- The start of a node. -/
def enter (as : Anchors) (name? : Option String) : Anchors :=
  match name? with
  | some name => (name, none) :: as
  | none => as

/-- The end of a node, whose anchor may have been defined again in it. -/
def complete (as : Anchors) (name? : Option String) (m : Meaning) : Anchors :=
  match name? with
  | some name => if as.lookup name matches some none then (name, some m) :: as else as
  | none => as

end Anchors

/-- The name of a standard tag. -/
def standardTag (name : String) : String := "tag:yaml.org,2002:" ++ name

/-- Whether a tag is one of the document's own. -/
def isOwnTag (tag? : Option String) : Bool := tag?.any fun t => t.toList.head? == some '!'

/-- The value of a scalar. -/
def scalarValue? (tag? : Option String) (plain : Bool) (s : String) : Option Yaml :=
  match tag? with
  | none => some (if plain then ofPlain s else .text s)
  | some tag =>
    if isOwnTag tag? then none
    else if tag = standardTag "bool" then (bool? s).map .bool
    else if tag = standardTag "int" then integer? s
    else if tag = standardTag "float" then float? s
    else if tag = standardTag "null" then if isNull s then some .null else none
    else some (.text s)

namespace Node

mutual

/-- The meaning of a node, and all anchors after it. -/
def meaning? : Node → Anchors → Option (Meaning × Anchors)
  | .alias name, as => do
    let m ← (as.lookup name).join
    some (m, as)
  | .scalar p plain s, as =>
    let m : Meaning := ⟨scalarValue? p.tag? plain s, 0, some s⟩
    some (m, (as.enter p.anchor?).complete p.anchor? m)
  | .list p items, as => do
    let (items, height, as) ← itemValues? items (as.enter p.anchor?)
    let m : Meaning := ⟨if isOwnTag p.tag? then none else some (.list items), height + 1, none⟩
    some (m, as.complete p.anchor? m)
  | .mapping p entries, as => do
    let (entries, height, as) ← entryValues? entries (as.enter p.anchor?)
    let m : Meaning :=
      ⟨if isOwnTag p.tag? then none else some (.mapping entries), height + 1, none⟩
    some (m, as.complete p.anchor? m)

/-- The values of items, and the depth of the deepest. -/
def itemValues? : List Node → Anchors → Option (List Yaml × Nat × Anchors)
  | [], as => some ([], 0, as)
  | item :: rest, as => do
    let (m, as) ← item.meaning? as
    let v ← m.value?
    let (vs, height, as) ← itemValues? rest as
    some (v :: vs, max m.height height, as)

/-- The values of entries, and the depth of the deepest. -/
def entryValues? : List (Node × Node) → Anchors → Option (List (String × Yaml) × Nat × Anchors)
  | [], as => some ([], 0, as)
  | (k, v) :: rest, as => do
    let (key, as) ← k.meaning? as
    let name ← key.key?
    let (m, as) ← v.meaning? as
    let value ← m.value?
    let (entries, height, as) ← entryValues? rest as
    some ((name, value) :: entries, max m.height height, as)

end

/-- The entries of a mapping, whatever its tag; nothing is a mapping without entries. -/
def entries? : Node → Option (List (String × Yaml))
  | .mapping p entries => do
    let (entries, height, _) ← entryValues? entries (Anchors.enter [] p.anchor?)
    if height < maxDepth then some entries else none
  | .scalar _ true s => if s.isEmpty then some [] else none
  | _ => none

end Node

/-- The entries of the mapping that a text is. -/
def document? (s : String) : Option (List (String × Yaml)) := do
  let cs ← spots? s.toList
  let ts ← Scan.tokens? cs
  let node ← Node.ofTokens? ts
  node.entries?

end RecordWalk.Yaml

import RecordWalk.Json.Token

/-!
# Reading JSON

`Json.parse?` reads a text that is one JSON value with nothing after it. It reads the tokens of
the text from left to right; the depth of the recursion is bounded by the number of tokens.
-/

namespace RecordWalk.Json

mutual

/-- A value at the start of some tokens, and the tokens after it. -/
def parseValue? : Nat → List Token → Option (Json × List Token)
  | _, .null :: ts => some (.null, ts)
  | _, .bool b :: ts => some (.bool b, ts)
  | _, .number literal :: ts => some (.number literal, ts)
  | _, .string s :: ts => some (.string s, ts)
  | _, .openArray :: .closeArray :: ts => some (.array [], ts)
  | fuel + 1, .openArray :: ts => do
    let (items, ts) ← parseItems? fuel ts
    some (.array items, ts)
  | _, .openObject :: .closeObject :: ts => some (.object [], ts)
  | fuel + 1, .openObject :: ts => do
    let (members, ts) ← parseMembers? fuel ts
    some (.object members, ts)
  | _, _ => none

/-- One or more items up to the end of an array. -/
def parseItems? : Nat → List Token → Option (List Json × List Token)
  | 0, _ => none
  | fuel + 1, ts => do
    let (item, ts) ← parseValue? fuel ts
    match ts with
    | .closeArray :: ts => some ([item], ts)
    | .comma :: ts =>
      let (items, ts) ← parseItems? fuel ts
      some (item :: items, ts)
    | _ => none

/-- One or more members up to the end of an object. -/
def parseMembers? : Nat → List Token → Option (List (JsonString × Json) × List Token)
  | fuel + 1, .string name :: .colon :: ts => do
    let (j, ts) ← parseValue? fuel ts
    match ts with
    | .closeObject :: ts => some ([(name, j)], ts)
    | .comma :: ts =>
      let (members, ts) ← parseMembers? fuel ts
      some ((name, j) :: members, ts)
    | _ => none
  | _, _ => none

end

/-- The value that a list of tokens is. -/
def ofTokens? (ts : List Token) : Option Json :=
  match parseValue? (2 * ts.length) ts with
  | some (j, []) => some j
  | _ => none

/-- The value that a text is. -/
def parse? (s : String) : Option Json := scan? s.toList >>= ofTokens?

end RecordWalk.Json

import RecordWalk.Json.Parse
import RecordWalk.Proofs.Json.Scan

/-!
# Parsing written JSON

The tokens of a value are parsed as the value, whatever follows them. Parsing counts down once for
each item and member and once for each level, and twice the number of tokens is always enough.

**Theorem (`parse?_chars`).** A plain value is read back from its text, in every blank style; so it
is from its compact and from its pretty text (`parse?_compact`, `parse?_pretty`).
-/

namespace RecordWalk.Json

/-- No value begins with the end of an array. -/
theorem tokens_ne_closeArray (j : Json) (ts ts' : List Token) :
    j.tokens ++ ts ≠ .closeArray :: ts' := by
  cases j with
  | array items => cases items <;> simp [tokens]
  | object members => cases members <;> simp [tokens]
  | _ => simp [tokens]

/-- A value is parsed from its tokens, in any number of steps that is not too small. -/
def Parses (j : Json) : Prop :=
  ∀ (ts : List Token) (fuel : Nat), 2 * j.tokens.length ≤ fuel →
    parseValue? fuel (j.tokens ++ ts) = some (j, ts)

-- The items of an array are parsed one after another, each with what follows it. The first one is
-- not part of the recursion, so that it is parsed comes as a hypothesis; the same goes for members.
mutual

theorem parses : ∀ j : Json, j.Parses
  | .null, ts, fuel, _ => by rw [tokens, List.singleton_append, parseValue?]
  | .bool b, ts, fuel, _ => by rw [tokens, List.singleton_append, parseValue?]
  | .number literal, ts, fuel, _ => by rw [tokens, List.singleton_append, parseValue?]
  | .string s, ts, fuel, _ => by rw [tokens, List.singleton_append, parseValue?]
  | .array [], ts, fuel, _ => by
    rw [tokens, List.cons_append, List.singleton_append, parseValue?]
  | .array (item :: items), ts, 0, hfuel => by simp [tokens] at hfuel
  | .array (item :: items), ts, fuel + 1, hfuel => by
    simp only [tokens, List.length_cons, List.length_append] at hfuel
    have hitems := parseItems?_tokens items ts (parses item) fuel (by omega)
    rw [tokens, List.cons_append, List.append_assoc, parseValue?, hitems]
    · rfl
    · exact tokens_ne_closeArray item _
  | .object [], ts, fuel, _ => by
    rw [tokens, List.cons_append, List.singleton_append, parseValue?]
  | .object ((name, j) :: members), ts, 0, hfuel => by simp [tokens] at hfuel
  | .object ((name, j) :: members), ts, fuel + 1, hfuel => by
    simp only [tokens, List.length_cons, List.length_append] at hfuel
    have hmembers := parseMembers?_tokens members name ts (parses j) fuel (by omega)
    simp only [tokens, List.cons_append, List.append_assoc, parseValue?, hmembers]
    rfl

theorem parseItems?_tokens : ∀ (items : List Json) (ts : List Token) {item : Json},
    item.Parses → ∀ fuel, 2 * (item.tokens.length + (itemTokens items).length) < fuel →
    parseItems? fuel (item.tokens ++ (itemTokens items ++ ts)) = some (item :: items, ts)
  | [], ts, item, hitem, fuel + 1, hfuel => by
    rw [parseItems?, hitem _ fuel (by omega), itemTokens]
    rfl
  | next :: items, ts, item, hitem, fuel + 1, hfuel => by
    simp only [itemTokens, List.length_cons, List.length_append] at hfuel
    have hitems := parseItems?_tokens items ts (parses next) fuel (by omega)
    rw [parseItems?, hitem _ fuel (by omega), itemTokens, List.cons_append, List.append_assoc]
    simp only [Option.bind_eq_bind, Option.bind_some, hitems]

theorem parseMembers?_tokens : ∀ (members : List (JsonString × Json)) (name : JsonString)
    (ts : List Token) {j : Json}, j.Parses →
    ∀ fuel, 2 * (j.tokens.length + (memberTokens members).length) < fuel →
    parseMembers? fuel (.string name :: .colon :: (j.tokens ++ (memberTokens members ++ ts))) =
      some ((name, j) :: members, ts)
  | [], name, ts, j, hj, fuel + 1, hfuel => by
    rw [parseMembers?, hj _ fuel (by omega), memberTokens]
    rfl
  | (name', next) :: members, name, ts, j, hj, fuel + 1, hfuel => by
    simp only [memberTokens, List.length_cons, List.length_append] at hfuel
    have hmembers := parseMembers?_tokens members name' ts (parses next) fuel (by omega)
    rw [parseMembers?, hj _ fuel (by omega), memberTokens]
    simp only [List.cons_append, List.append_assoc, Option.bind_eq_bind, Option.bind_some, hmembers]

end

theorem ofTokens?_tokens (j : Json) : ofTokens? j.tokens = some j := by
  have h := parses j [] (2 * j.tokens.length) (Nat.le_refl _)
  rw [List.append_nil] at h
  rw [ofTokens?, h]

/-- **A plain value is read back from its text**, however it is laid out. -/
theorem parse?_chars {style : Style} (hstyle : style.Blank) {j : Json} (hj : j.Plain) :
    parse? (String.ofList (j.chars style 0)) = some j := by
  have h := (scans_chars hstyle 0 j hj .nil .nil).scan?
  rw [List.append_nil, List.append_nil] at h
  rw [parse?, String.toList_ofList, h, Option.bind_eq_bind, Option.bind_some, ofTokens?_tokens]

theorem parse?_compact {j : Json} (hj : j.Plain) : parse? j.compact = some j :=
  parse?_chars Style.compact_blank hj

theorem parse?_pretty {j : Json} (hj : j.Plain) : parse? j.pretty = some j :=
  parse?_chars Style.pretty_blank hj

end RecordWalk.Json

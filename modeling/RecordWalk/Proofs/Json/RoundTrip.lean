import RecordWalk.Config.Json
import RecordWalk.Proofs.Json.Parse
import RecordWalk.Report.Json

/-!
# Reports and configurations from their JSON

Reports and configurations are objects of texts, flags, numbers and lists. Each of these is decoded
from what it is encoded as, and an object with distinct names gives each member to the one who asks
for it. Encoded values are plain, so they also survive being written and read.

**Theorem (`jsonText_roundTrip`).** A report is read back from its JSON text if its numbers of
assertions fit in 64 bits. A configuration always is.
-/

namespace RecordWalk

/-! ## Decoding what was encoded -/

theorem JsonString.chars?_map_char (cs : List Char) : chars? (cs.map .char) = some cs := by
  induction cs with
  | nil => rfl
  | cons c cs ih => rw [List.map_cons, chars?, ih, Option.map_some]

@[simp] theorem JsonString.toText?_ofText (s : String) : (ofText s).toText? = some s := by
  rw [toText?, ofText, chars?_map_char, Option.map_some, String.ofList_toList]

namespace Json

@[simp] theorem toBool?_bool (b : Bool) : (bool b).toBool? = some b := rfl

@[simp] theorem toText?_ofText (s : String) : (ofText s).toText? = some s :=
  JsonString.toText?_ofText s

@[simp] theorem toOptionalText?_ofText? (s? : Option String) :
    (ofText? s?).toOptionalText? = some s? := by
  cases s? with
  | none => rfl
  | some s => exact congrArg (Option.map some) (toText?_ofText s)

theorem toNatBelow?_ofNat {n bound : Nat} (h : n < bound) :
    (ofNat n).toNatBelow? bound = some n := by
  have hdigits : (Nat.toDigits 10 n).all Char.isDigit = true :=
    List.all_eq_true.2 fun _ hc => isDigit_of_mem_toDigits hc
  have hvalue : Nat.ofDigitChars 10 (Nat.toDigits 10 n) 0 = n := Nat.ofDigitChars_ten_toDigits
  simp only [ofNat, toNatBelow?, hdigits, hvalue, h, decide_true, Bool.and_self, if_true]

@[simp] theorem toNamed?_ofText {α : Type} (ofName? : String → Option α) (s : String) :
    (ofText s).toNamed? ofName? = ofName? s := by
  simp [ofText, toNamed?]

theorem toList?_array_map {α : Type} {item? : Json → Option α} {encode : α → Json} {xs : List α}
    (h : ∀ x ∈ xs, item? (encode x) = some x) :
    (array (xs.map encode)).toList? item? = some xs := by
  rw [toList?]
  induction xs with
  | nil => rfl
  | cons x xs ih =>
    have hxs := ih fun y hy => h y (List.mem_cons_of_mem x hy)
    simp [List.mapM_cons, h x List.mem_cons_self, hxs]

@[simp] theorem toMembers?_ofMembers (members : List (String × Json)) :
    (ofMembers members).toMembers? = some members := by
  rw [ofMembers, toMembers?]
  induction members with
  | nil => rfl
  | cons m members ih => simp [List.mapM_cons, ih]

/-! ## What is encoded is plain -/

theorem Plain.ofText? (s? : Option String) : (ofText? s?).Plain := by
  cases s? with
  | none => exact .null
  | some s => exact .ofText s

theorem Plain.ofMembers {members : List (String × Json)} (h : ∀ m ∈ members, m.2.Plain) :
    (ofMembers members).Plain := by
  refine .object (fun m hm => ?_) fun m hm => ?_
  · obtain ⟨n, -, rfl⟩ := List.mem_map.1 hm
    exact ⟨n.1, rfl⟩
  · obtain ⟨n, hn, rfl⟩ := List.mem_map.1 hm
    exact h n hn

theorem Plain.array_map {α : Type} {encode : α → Json} (h : ∀ x, (encode x).Plain) (xs : List α) :
    (Json.array (xs.map encode)).Plain := by
  refine .array fun j hj => ?_
  obtain ⟨x, -, rfl⟩ := List.mem_map.1 hj
  exact h x

end Json

/-! ## Configurations -/

@[simp] theorem ReportFormat.ofLabel?_label (f : ReportFormat) : ofLabel? f.label = some f := by
  cases f <;> decide

namespace Config

theorem plain_toJson (c : Config) : c.toJson.Plain := by
  refine .ofMembers ?_
  simp only [List.forall_mem_cons, List.not_mem_nil, false_implies, implies_true, and_true]
  exact ⟨.array_map .ofText c.fixtures, .bool c.strict, .ofText c.format.label⟩

theorem ofJson?_toJson (c : Config) : ofJson? c.toJson = some c := by
  have hfixtures : fixtures? (.array (c.fixtures.map .ofText)) = some c.fixtures :=
    Json.toList?_array_map fun s _ => Json.toText?_ofText s
  have hformat : format? (.ofText c.format.label) = some c.format := by
    rw [format?, Json.toNamed?_ofText, ReportFormat.ofLabel?_label]
  show c.toJson.toMembers? >>= ofMembers? = some c
  simp [toJson, ofMembers?, Json.optional?, Json.occurrence, hfixtures, hformat]

end Config

/-! ## Reports -/

@[simp] theorem Outcome.ofLabel?_label (o : Outcome) : ofLabel? o.label = some o := by
  cases o <;> decide

namespace FixtureResult

theorem plain_toJson (r : FixtureResult) : r.toJson.Plain := by
  refine .ofMembers ?_
  simp only [List.forall_mem_cons, List.not_mem_nil, false_implies, implies_true, and_true]
  exact ⟨.ofText r.name, .ofText r.outcome.label, .ofNat r.assertions, .ofText? r.diagnostic?,
    .ofText? r.discrepancy?⟩

theorem ofJson?_toJson {r : FixtureResult} (h : r.assertions < UInt64.size) :
    ofJson? r.toJson = some r := by
  have hassertions : assertions? (.ofNat r.assertions) = some r.assertions :=
    Json.toNatBelow?_ofNat h
  show r.toJson.toMembers? >>= ofMembers? = some r
  simp [toJson, ofMembers?, Json.required?, Json.optional?, Json.occurrence, hassertions]

end FixtureResult

namespace Report

theorem plain_toJson (r : Report) : r.toJson.Plain := by
  refine .ofMembers ?_
  simp only [List.forall_mem_cons, List.not_mem_nil, false_implies, implies_true, and_true]
  exact ⟨.array_map FixtureResult.plain_toJson r.results, .bool r.strict⟩

theorem ofJson?_toJson {r : Report} (h : ∀ result ∈ r.results, result.assertions < UInt64.size) :
    ofJson? r.toJson = some r := by
  have hresults : (Json.array (r.results.map FixtureResult.toJson)).toList? FixtureResult.ofJson? =
      some r.results :=
    Json.toList?_array_map fun result hr => FixtureResult.ofJson?_toJson (h result hr)
  show r.toJson.toMembers? >>= ofMembers? = some r
  simp [toJson, ofMembers?, Json.required?, Json.occurrence, hresults]

end Report

/-- **Reports and configurations are read back from their JSON text.** For a report the numbers of
assertions have to fit in 64 bits; names, diagnostics and discrepancies are any texts. -/
theorem jsonText_roundTrip :
    (∀ r : Report, (∀ result ∈ r.results, result.assertions < UInt64.size) →
      Report.ofJsonText? r.jsonText = some r) ∧
    ∀ c : Config, Config.ofJsonText? c.jsonText = some c := by
  constructor
  · intro r h
    rw [Report.ofJsonText?, Report.jsonText, Json.parse?_pretty r.plain_toJson]
    exact Report.ofJson?_toJson h
  · intro c
    rw [Config.ofJsonText?, Config.jsonText, Json.parse?_compact c.plain_toJson]
    exact c.ofJson?_toJson

/-- The greatest number of assertions, and texts that need each kind of escape. -/
theorem jsonText_roundTrip_escapes :
    let r : Report :=
      ⟨[⟨"quote \" slash \\ line \n", .expectedFailure, 0xffffffffffffffff, some "", some "\x01"⟩,
        ⟨"\x7f é 😀", .unexpectedPass, 0, none, none⟩], true⟩
    (∀ result ∈ r.results, result.assertions < UInt64.size) ∧
      Report.ofJsonText? r.jsonText = some r := by
  intro r
  have h : ∀ result ∈ r.results, result.assertions < UInt64.size := by decide
  exact ⟨h, jsonText_roundTrip.1 r h⟩

end RecordWalk

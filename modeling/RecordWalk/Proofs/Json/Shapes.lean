import Mathlib.Data.List.Forall2
import RecordWalk.Proofs.Json.RoundTrip

/-!
# Shapes of configurations and reports in JSON

The same configuration or report may be written in many ways: as an object with its members in any
order, unknown members among them and some of its own left out, or as an array of its fields. A
`JsonField` says what stands for a field and whether the member may be left out, and a shape is put
together from fields. Decoding looks for each field by its name, so all that matters of the members
of an object is how often each name occurs and with what value; that is the same in every order.

**Theorem (`decode_shapes`).** Every shape of a configuration or report decodes to it. Decoding
fails if a known member is repeated, if one is missing that has to be there, and if an array is too
long.
-/

namespace RecordWalk

/-! ## Fields -/

/-- A field of a structure: its name, the values that stand for it, and whether its member may be
left out. -/
structure JsonField where
  name : String
  IsValue : Json → Prop
  MayLack : Prop

namespace JsonField

/-- The members of fields, in the order of the fields; some of those that may lack are left out. -/
inductive Members : List JsonField → List (String × Json) → Prop
  | nil : Members [] []
  | cons {f : JsonField} {fields : List JsonField} {j : Json} {members : List (String × Json)} :
      f.IsValue j → Members fields members → Members (f :: fields) ((f.name, j) :: members)
  | lack {f : JsonField} {fields : List JsonField} {members : List (String × Json)} :
      f.MayLack → Members fields members → Members (f :: fields) members

/-- The values of fields in order; some of those that may lack are left out at the end. -/
inductive Leading : List JsonField → List Json → Prop
  | nil {fields : List JsonField} : (∀ f ∈ fields, f.MayLack) → Leading fields []
  | cons {f : JsonField} {fields : List JsonField} {j : Json} {items : List Json} :
      f.IsValue j → Leading fields items → Leading (f :: fields) (j :: items)

/-- Named members that are those of fields, in any order and with others among them. -/
def Among (fields : List JsonField) (members : List (String × Json)) : Prop :=
  ∃ own, Members fields own ∧ (members.filter (·.1 ∈ fields.map name)).Perm own

end JsonField

namespace Json

/-- A string that denotes a text. -/
def IsText (s : String) (j : Json) : Prop := ∃ p : JsonString, p.toText? = some s ∧ j = .string p

/-- An object with certain members, whose names are texts. -/
def IsObject (members : List (String × Json)) (j : Json) : Prop :=
  ∃ raw, j = .object raw ∧
    List.Forall₂ (fun m n => m.1.toText? = some n.1 ∧ m.2 = n.2) raw members

/-- An object of fields. -/
def IsObjectOf (fields : List JsonField) (j : Json) : Prop :=
  ∃ members, j.IsObject members ∧ JsonField.Among fields members

end Json

/-! ## Reading members -/

namespace JsonField

theorem Members.mem_names {fields : List JsonField} {own : List (String × Json)}
    (h : Members fields own) : ∀ m ∈ own, m.1 ∈ fields.map name := by
  induction h with
  | nil => simp
  | cons hvalue _ ih =>
    intro m hm
    rcases List.mem_cons.1 hm with rfl | hm
    · exact List.mem_cons_self
    · exact List.mem_cons_of_mem _ (ih m hm)
  | lack hlack _ ih => exact fun m hm => List.mem_cons_of_mem _ (ih m hm)

theorem Members.filter_eq_nil {fields : List JsonField} {own : List (String × Json)}
    (h : Members fields own) {name : String} (hname : name ∉ fields.map JsonField.name) :
    own.filter (·.1 == name) = [] := by
  rw [List.filter_eq_nil_iff]
  intro m hm heq
  exact hname (beq_iff_eq.1 heq ▸ h.mem_names m hm)

/-- A field has one member, or none if it may lack. -/
theorem Members.filter_name {fields : List JsonField} {own : List (String × Json)}
    (h : Members fields own) (hnodup : (fields.map name).Nodup) {f : JsonField} (hf : f ∈ fields) :
    (∃ j, f.IsValue j ∧ own.filter (·.1 == f.name) = [(f.name, j)]) ∨
      f.MayLack ∧ own.filter (·.1 == f.name) = [] := by
  induction h with
  | nil => cases hf
  | @cons g fields j members hvalue hmembers ih =>
    obtain ⟨hg, hnodup⟩ := List.nodup_cons.1 hnodup
    rcases List.mem_cons.1 hf with rfl | hf
    · refine .inl ⟨j, hvalue, ?_⟩
      rw [List.filter_cons_of_pos (by simp), hmembers.filter_eq_nil hg]
    · have hne : g.name ≠ f.name := fun e => hg (e ▸ List.mem_map_of_mem hf)
      rw [List.filter_cons_of_neg (by simpa using hne)]
      exact ih hnodup hf
  | @lack g fields members hlack hmembers ih =>
    obtain ⟨hg, hnodup⟩ := List.nodup_cons.1 hnodup
    rcases List.mem_cons.1 hf with rfl | hf
    · exact .inr ⟨hlack, hmembers.filter_eq_nil hg⟩
    · exact ih hnodup hf

/-- Other members and the order of the members make no difference to a field. -/
theorem Among.filter_name {fields : List JsonField} {members : List (String × Json)}
    (h : Among fields members) (hnodup : (fields.map name).Nodup) {f : JsonField}
    (hf : f ∈ fields) :
    (∃ j, f.IsValue j ∧ members.filter (·.1 == f.name) = [(f.name, j)]) ∨
      f.MayLack ∧ members.filter (·.1 == f.name) = [] := by
  obtain ⟨own, hown, hperm⟩ := h
  have hname : f.name ∈ fields.map name := List.mem_map_of_mem hf
  have hsame : (members.filter (·.1 ∈ fields.map name)).filter (·.1 == f.name) =
      members.filter (·.1 == f.name) := by
    rw [List.filter_filter]
    refine List.filter_congr fun m _ => ?_
    by_cases hm : m.1 = f.name <;> simp [hm, hname]
  have hfilter := hperm.filter (·.1 == f.name)
  rw [hsame] at hfilter
  rcases hown.filter_name hnodup hf with ⟨j, hj, hone⟩ | ⟨hlack, hnone⟩
  · rw [hone] at hfilter
    exact .inl ⟨j, hj, List.perm_singleton.1 hfilter⟩
  · rw [hnone] at hfilter
    exact .inr ⟨hlack, List.perm_nil.1 hfilter⟩

section Reading

variable {α : Type} {fields : List JsonField} {members : List (String × Json)}

theorem Among.optional? (h : Among fields members) (hnodup : (fields.map name).Nodup)
    {f : JsonField} (hf : f ∈ fields) {value? : Json → Option α} {d x : α}
    (hvalue : ∀ j, f.IsValue j → value? j = some x) (hdefault : f.MayLack → d = x) :
    Json.optional? f.name d value? members = some x := by
  rcases h.filter_name hnodup hf with ⟨j, hj, hone⟩ | ⟨hlack, hnone⟩
  · rw [Json.optional?, Json.occurrence, hone]
    exact hvalue j hj
  · rw [Json.optional?, Json.occurrence, hnone]
    exact congrArg some (hdefault hlack)

theorem Among.required? (h : Among fields members) (hnodup : (fields.map name).Nodup)
    {f : JsonField} (hf : f ∈ fields) (hneeded : ¬ f.MayLack) {value? : Json → Option α} {x : α}
    (hvalue : ∀ j, f.IsValue j → value? j = some x) :
    Json.required? f.name value? members = some x := by
  rcases h.filter_name hnodup hf with ⟨j, hj, hone⟩ | ⟨hlack, -⟩
  · rw [Json.required?, Json.occurrence, hone]
    exact hvalue j hj
  · exact absurd hlack hneeded

end Reading

end JsonField

/-! ## Decoding parts -/

namespace Json

theorem IsText.toText? {s : String} {j : Json} (h : j.IsText s) : j.toText? = some s := by
  obtain ⟨p, hp, rfl⟩ := h
  exact hp

theorem toBool?_of_eq {j : Json} {b : Bool} (h : j = .bool b) : j.toBool? = some b := by
  rw [h, toBool?_bool]

theorem IsText.toNamed? {α : Type} {ofName? : String → Option α} {s : String} {j : Json}
    (h : j.IsText s) : j.toNamed? ofName? = ofName? s := by
  obtain ⟨p, hp, rfl⟩ := h
  rw [Json.toNamed?, hp, Option.bind_eq_bind, Option.bind_some]

theorem mapM_eq_some_iff {α β : Type} {f : α → Option β} {xs : List α} {ys : List β} :
    xs.mapM f = some ys ↔ List.Forall₂ (fun x y => f x = some y) xs ys := by
  induction xs generalizing ys with
  | nil => simp [eq_comm]
  | cons x xs ih =>
    simp only [List.mapM_cons, Option.bind_eq_bind, Option.bind_eq_some_iff, Option.pure_def,
      Option.some.injEq, List.forall₂_cons_left_iff, ih]
    grind

theorem isObject_object_iff {raw : List (JsonString × Json)} {members : List (String × Json)} :
    (object raw).IsObject members ↔
      List.Forall₂ (fun m n => m.1.toText? = some n.1 ∧ m.2 = n.2) raw members := by
  simp [IsObject]

theorem toMembers?_eq_some_iff {members : List (String × Json)} {j : Json} :
    j.toMembers? = some members ↔ j.IsObject members := by
  cases j with
  | object raw =>
    rw [toMembers?, mapM_eq_some_iff, isObject_object_iff]
    simp [Prod.ext_iff]
  | _ => simp [toMembers?, IsObject]

theorem IsObjectOf.decode_eq_some {α : Type} {fields : List JsonField} {j : Json} {x : α}
    (h : j.IsObjectOf fields) (decode? : List (String × Json) → Option α)
    (hdecode : ∀ members, JsonField.Among fields members → decode? members = some x) :
    j.toMembers? >>= decode? = some x := by
  obtain ⟨members, hobject, hamong⟩ := h
  rw [toMembers?_eq_some_iff.2 hobject]
  exact hdecode members hamong

end Json

/-- A string for a text, and null for none. -/
def Json.IsText? (s? : Option String) (j : Json) : Prop :=
  match s? with
  | some s => j.IsText s
  | none => j = .null

theorem Json.IsText?.toOptionalText? {s? : Option String} {j : Json} (h : j.IsText? s?) :
    j.toOptionalText? = some s? := by
  cases s? with
  | none =>
    obtain rfl : j = .null := h
    rfl
  | some s =>
    obtain ⟨p, hp, rfl⟩ := h
    exact congrArg (Option.map some) hp

/-! ## Configurations -/

namespace Config

/-- The names of the members, in the order of the fields. -/
def memberNames : List String := ["fixtures", "strict_discrepancies", "report_format"]

def fields (c : Config) : List JsonField :=
  [⟨"fixtures", fun j => ∃ items, j = .array items ∧
      List.Forall₂ (fun item s => item.IsText s) items c.fixtures, c.fixtures = default.fixtures⟩,
    ⟨"strict_discrepancies", fun j => j = .bool c.strict, c.strict = default.strict⟩,
    ⟨"report_format", fun j => j.IsText c.format.label, c.format = default.format⟩]

/-- An object of the fields, or an array of them in order. Where a field has its default, its member
may be left out, and so may its item at the end of the array. -/
def IsShape (c : Config) (j : Json) : Prop :=
  j.IsObjectOf c.fields ∨ ∃ items, j = .array items ∧ JsonField.Leading c.fields items

theorem nodup_names_fields (c : Config) : (c.fields.map JsonField.name).Nodup := by
  show memberNames.Nodup
  decide

theorem fixtures?_of_texts {j : Json} {names : List String}
    (h : ∃ items, j = .array items ∧ List.Forall₂ (fun item s => item.IsText s) items names) :
    fixtures? j = some names := by
  obtain ⟨items, rfl, hitems⟩ := h
  exact Json.mapM_eq_some_iff.2 (hitems.imp fun _ _ h => h.toText?)

theorem format?_of_text {j : Json} {f : ReportFormat} (h : j.IsText f.label) :
    format? j = some f := by
  rw [format?, h.toNamed?, ReportFormat.ofLabel?_label]

theorem ofMembers?_of_among {c : Config} {members : List (String × Json)}
    (h : JsonField.Among c.fields members) : ofMembers? members = some c := by
  have hfixtures : Json.optional? "fixtures" default.fixtures fixtures? members =
      some c.fixtures :=
    h.optional? c.nodup_names_fields (.head _) (fun _ hj => fixtures?_of_texts hj) Eq.symm
  have hstrict : Json.optional? "strict_discrepancies" default.strict Json.toBool? members =
      some c.strict :=
    h.optional? c.nodup_names_fields (.tail _ (.head _)) (fun _ hj => Json.toBool?_of_eq hj) Eq.symm
  have hformat : Json.optional? "report_format" default.format format? members =
      some c.format :=
    h.optional? c.nodup_names_fields (.tail _ (.tail _ (.head _))) (fun _ hj => format?_of_text hj)
      Eq.symm
  rw [ofMembers?, hfixtures, hstrict, hformat]
  rfl

theorem ofJson?_of_leading {c : Config} {items : List Json}
    (h : JsonField.Leading c.fields items) : ofJson? (.array items) = some c := by
  obtain ⟨fixtures, strict, format⟩ := c
  -- The array has as many items as fields were written; all others have their default.
  cases h with
  | nil hlack =>
    simp only [fields, List.forall_mem_cons] at hlack
    obtain ⟨rfl, rfl, rfl, -⟩ := hlack
    rfl
  | @cons _ _ j _ hfixtures h =>
    cases h with
    | nil hlack =>
      simp only [List.forall_mem_cons] at hlack
      obtain ⟨rfl, rfl, -⟩ := hlack
      show fixtures? j >>= _ = _
      rw [fixtures?_of_texts hfixtures]
      rfl
    | @cons _ _ k _ hstrict h =>
      cases h with
      | nil hlack =>
        simp only [List.forall_mem_cons] at hlack
        obtain ⟨rfl, -⟩ := hlack
        show fixtures? j >>= (fun _ => k.toBool? >>= _) = _
        rw [fixtures?_of_texts hfixtures, Json.toBool?_of_eq hstrict]
        rfl
      | @cons _ _ l _ hformat h =>
        cases h with
        | nil _ =>
          show fixtures? j >>= (fun _ => k.toBool? >>= fun _ => format? l >>= _) = _
          rw [fixtures?_of_texts hfixtures, Json.toBool?_of_eq hstrict, format?_of_text hformat]
          rfl

/-- **Every shape of a configuration decodes to it.** -/
theorem ofJson?_of_isShape {c : Config} {j : Json} (h : c.IsShape j) : ofJson? j = some c := by
  rcases h with h | ⟨items, rfl, hitems⟩
  · have hsome := h.decode_eq_some ofMembers? fun members hmembers => ofMembers?_of_among hmembers
    obtain ⟨_, ⟨raw, rfl, -⟩, -⟩ := h
    exact hsome
  · exact ofJson?_of_leading hitems

end Config

/-! ## Reports -/

namespace FixtureResult

def memberNames : List String := ["name", "outcome", "assertions", "diagnostic", "discrepancy"]

def fields (r : FixtureResult) : List JsonField :=
  [⟨"name", fun j => j.IsText r.name, False⟩,
    ⟨"outcome", fun j => j.IsText r.outcome.label, False⟩,
    ⟨"assertions", fun j => j = .ofNat r.assertions, False⟩,
    ⟨"diagnostic", fun j => j.IsText? r.diagnostic?, r.diagnostic? = none⟩,
    ⟨"discrepancy", fun j => j.IsText? r.discrepancy?, r.discrepancy? = none⟩]

/-- An object of the fields, in which a diagnostic or discrepancy that is absent is null or left
out, or an array of all fields in order. -/
def IsShape (r : FixtureResult) (j : Json) : Prop :=
  j.IsObjectOf r.fields ∨
    ∃ items, j = .array items ∧ List.Forall₂ JsonField.IsValue r.fields items

theorem nodup_names_fields (r : FixtureResult) : (r.fields.map JsonField.name).Nodup := by
  show memberNames.Nodup
  decide

theorem toNamed?_of_text {j : Json} {o : Outcome} (h : j.IsText o.label) :
    j.toNamed? Outcome.ofLabel? = some o := by
  rw [h.toNamed?, Outcome.ofLabel?_label]

theorem assertions?_of_eq {j : Json} {n : Nat} (hn : n < UInt64.size) (h : j = .ofNat n) :
    assertions? j = some n := by
  rw [h]
  exact Json.toNatBelow?_ofNat hn

theorem ofMembers?_of_among {r : FixtureResult} (hr : r.assertions < UInt64.size)
    {members : List (String × Json)} (h : JsonField.Among r.fields members) :
    ofMembers? members = some r := by
  have hnodup := r.nodup_names_fields
  have hname : Json.required? "name" Json.toText? members = some r.name :=
    h.required? hnodup (.head _) id fun _ hj => hj.toText?
  have houtcome : Json.required? "outcome" (Json.toNamed? Outcome.ofLabel?) members =
      some r.outcome :=
    h.required? hnodup (.tail _ (.head _)) id fun _ hj => toNamed?_of_text hj
  have hassertions : Json.required? "assertions" assertions? members = some r.assertions :=
    h.required? hnodup (.tail _ (.tail _ (.head _))) id fun _ hj => assertions?_of_eq hr hj
  have hdiagnostic : Json.optional? "diagnostic" none Json.toOptionalText? members =
      some r.diagnostic? :=
    h.optional? hnodup (.tail _ (.tail _ (.tail _ (.head _)))) (fun _ hj => hj.toOptionalText?)
      Eq.symm
  have hdiscrepancy : Json.optional? "discrepancy" none Json.toOptionalText? members =
      some r.discrepancy? :=
    h.optional? hnodup (.tail _ (.tail _ (.tail _ (.tail _ (.head _)))))
      (fun _ hj => hj.toOptionalText?) Eq.symm
  rw [ofMembers?, hname, houtcome, hassertions, hdiagnostic, hdiscrepancy]
  rfl

theorem ofJson?_of_forall₂ {r : FixtureResult} (hr : r.assertions < UInt64.size)
    {items : List Json} (h : List.Forall₂ JsonField.IsValue r.fields items) :
    ofJson? (.array items) = some r := by
  simp only [fields, List.forall₂_cons_left_iff, List.forall₂_nil_left_iff] at h
  obtain ⟨name, _, hname, ⟨outcome, _, houtcome, ⟨assertions, _, hassertions, ⟨diagnostic, _,
    hdiagnostic, ⟨discrepancy, _, hdiscrepancy, rfl, rfl⟩, rfl⟩, rfl⟩, rfl⟩, rfl⟩ := h
  show name.toText? >>= (fun _ => outcome.toNamed? Outcome.ofLabel? >>= fun _ =>
    assertions? assertions >>= fun _ => diagnostic.toOptionalText? >>= fun _ =>
    discrepancy.toOptionalText? >>= _) = _
  rw [hname.toText?, toNamed?_of_text houtcome, assertions?_of_eq hr hassertions,
    hdiagnostic.toOptionalText?, hdiscrepancy.toOptionalText?]
  rfl

theorem ofJson?_of_isShape {r : FixtureResult} (hr : r.assertions < UInt64.size) {j : Json}
    (h : r.IsShape j) : ofJson? j = some r := by
  rcases h with h | ⟨items, rfl, hitems⟩
  · have hsome := h.decode_eq_some ofMembers? fun members hmembers =>
      ofMembers?_of_among hr hmembers
    obtain ⟨_, ⟨raw, rfl, -⟩, -⟩ := h
    exact hsome
  · exact ofJson?_of_forall₂ hr hitems

end FixtureResult

namespace Report

def memberNames : List String := ["results", "strict_discrepancies"]

def fields (r : Report) : List JsonField :=
  [⟨"results", fun j => ∃ items, j = .array items ∧
      List.Forall₂ (fun item result => result.IsShape item) items r.results, False⟩,
    ⟨"strict_discrepancies", fun j => j = .bool r.strict, False⟩]

/-- An object of the fields, or an array of them in order; each result is in a shape of its own. -/
def IsShape (r : Report) (j : Json) : Prop :=
  j.IsObjectOf r.fields ∨
    ∃ items, j = .array items ∧ List.Forall₂ JsonField.IsValue r.fields items

theorem nodup_names_fields (r : Report) : (r.fields.map JsonField.name).Nodup := by
  show memberNames.Nodup
  decide

theorem toList?_of_shapes {results : List FixtureResult}
    (hfits : ∀ result ∈ results, result.assertions < UInt64.size) {j : Json}
    (h : ∃ items, j = .array items ∧
      List.Forall₂ (fun item result => result.IsShape item) items results) :
    j.toList? FixtureResult.ofJson? = some results := by
  obtain ⟨items, rfl, hitems⟩ := h
  refine Json.mapM_eq_some_iff.2 ?_
  induction hitems with
  | nil => exact .nil
  | cons hshape _ ih =>
    exact .cons (FixtureResult.ofJson?_of_isShape (hfits _ List.mem_cons_self) hshape)
      (ih fun result hr => hfits result (.tail _ hr))

theorem ofMembers?_of_among {r : Report}
    (hr : ∀ result ∈ r.results, result.assertions < UInt64.size) {members : List (String × Json)}
    (h : JsonField.Among r.fields members) : ofMembers? members = some r := by
  have hresults : Json.required? "results" (Json.toList? FixtureResult.ofJson?) members =
      some r.results :=
    h.required? r.nodup_names_fields (.head _) id fun _ hj => toList?_of_shapes hr hj
  have hstrict : Json.required? "strict_discrepancies" Json.toBool? members = some r.strict :=
    h.required? r.nodup_names_fields (.tail _ (.head _)) id fun _ hj => Json.toBool?_of_eq hj
  rw [ofMembers?, hresults, hstrict]
  rfl

/-- **Every shape of a report decodes to it.** -/
theorem ofJson?_of_isShape {r : Report}
    (hr : ∀ result ∈ r.results, result.assertions < UInt64.size) {j : Json} (h : r.IsShape j) :
    ofJson? j = some r := by
  rcases h with h | ⟨items, rfl, hitems⟩
  · have hsome := h.decode_eq_some ofMembers? fun members hmembers =>
      ofMembers?_of_among hr hmembers
    obtain ⟨_, ⟨raw, rfl, -⟩, -⟩ := h
    exact hsome
  · simp only [fields, List.forall₂_cons_left_iff, List.forall₂_nil_left_iff] at hitems
    obtain ⟨results, _, hresults, ⟨strict, _, hstrict, rfl, rfl⟩, rfl⟩ := hitems
    show results.toList? FixtureResult.ofJson? >>= (fun _ => strict.toBool? >>= _) = _
    rw [toList?_of_shapes hr hresults, Json.toBool?_of_eq hstrict]
    rfl

end Report

/-! ## What is refused -/

namespace Json

/-- An object in which a known member is repeated, or one is missing that has to be there. -/
def Miscounts (known needed : List String) (j : Json) : Prop :=
  ∃ raw, j = .object raw ∧
    ((∃ name ∈ known, 2 ≤ raw.countP (·.1.toText? == some name)) ∨
      ∃ name ∈ needed, ∀ m ∈ raw, m.1.toText? ≠ some name)

/-- An array whose length is of some kind. -/
def IsArrayOfLength (p : Nat → Prop) (j : Json) : Prop := ∃ items, j = .array items ∧ p items.length

theorem length_filter_eq_countP {raw : List (JsonString × Json)} {members : List (String × Json)}
    (h : List.Forall₂ (fun m n => m.1.toText? = some n.1 ∧ m.2 = n.2) raw members)
    (name : String) :
    (members.filter (·.1 == name)).length = raw.countP (·.1.toText? == some name) := by
  induction h with
  | nil => rfl
  | @cons m n raw members hm _ ih =>
    rw [List.countP_cons, ← ih, List.filter_cons, hm.1]
    by_cases hname : n.1 = name <;> simp [hname]

theorem mem_of_toText? {raw : List (JsonString × Json)} {members : List (String × Json)}
    (h : List.Forall₂ (fun m n => m.1.toText? = some n.1 ∧ m.2 = n.2) raw members)
    {p : JsonString} {j : Json} (hp : (p, j) ∈ raw) {name : String}
    (hname : p.toText? = some name) : (name, j) ∈ members := by
  induction h with
  | nil => cases hp
  | @cons m n raw members hm _ ih =>
    rcases List.mem_cons.1 hp with rfl | hp
    · have hn : n = (name, j) := Prod.ext (Option.some.inj (hm.1.symm.trans hname)) hm.2.symm
      exact hn ▸ List.mem_cons_self
    · exact List.mem_cons_of_mem _ (ih hp)

theorem toList?_eq_none_of_mem {α : Type} {item? : Json → Option α} {items : List Json}
    {item : Json} (hmem : item ∈ items) (hitem : item? item = none) :
    (array items).toList? item? = none := by
  show items.mapM item? = none
  induction items with
  | nil => cases hmem
  | cons x items ih =>
    rw [List.mapM_cons]
    rcases List.mem_cons.1 hmem with rfl | hmem
    · rw [hitem, Option.bind_eq_bind, Option.bind_none]
    · rw [ih hmem]
      cases item? x <;> rfl

section Occurrence

variable {α : Type} {name : String} {members : List (String × Json)} {value? : Json → Option α}

theorem occurrence_eq_repeated (h : 2 ≤ (members.filter (·.1 == name)).length) :
    occurrence name members = .repeated := by
  unfold occurrence
  split
  next hnone => simp [hnone] at h
  next hone => simp [hone] at h
  next => rfl

theorem occurrence_eq_missing (h : members.filter (·.1 == name) = []) :
    occurrence name members = .missing := by
  rw [occurrence, h]

theorem eq_of_occurrence_eq_once {j k : Json} (h : occurrence name members = .once k)
    (hj : (name, j) ∈ members) : j = k := by
  have hmem : (name, j) ∈ members.filter (·.1 == name) := List.mem_filter.2 ⟨hj, by simp⟩
  unfold occurrence at h
  split at h
  next => cases h
  next hone =>
    cases h
    rw [hone, List.mem_singleton] at hmem
    exact congrArg Prod.snd hmem
  next => cases h

theorem occurrence_of_optional? {d x : α} (h : optional? name d value? members = some x) :
    occurrence name members ≠ .repeated := by
  intro hrepeated
  rw [optional?, hrepeated] at h
  cases h

theorem occurrence_of_required? {x : α} (h : required? name value? members = some x) :
    ∃ j, occurrence name members = .once j ∧ value? j = some x := by
  unfold required? at h
  split at h
  next j hj => exact ⟨j, hj, h⟩
  next => cases h

end Occurrence

/-- **Objects that miscount are refused**, if what is decoded from members takes each known one at
most once and each needed one at least once. -/
theorem Miscounts.decode_eq_none {α : Type} {known needed : List String} {j : Json}
    (h : j.Miscounts known needed) (decode? : List (String × Json) → Option α)
    (hdecode : ∀ members x, decode? members = some x →
      (∀ name ∈ known, occurrence name members ≠ .repeated) ∧
        ∀ name ∈ needed, occurrence name members ≠ .missing) :
    j.toMembers? >>= decode? = none := by
  rw [Option.eq_none_iff_forall_ne_some]
  intro x hx
  obtain ⟨members, hmembers, hx⟩ := Option.bind_eq_some_iff.1 hx
  obtain ⟨hknown, hneeded⟩ := hdecode members x hx
  obtain ⟨raw, rfl, hcount⟩ := h
  have hforall := isObject_object_iff.1 (toMembers?_eq_some_iff.1 hmembers)
  rcases hcount with ⟨name, hname, htwo⟩ | ⟨name, hname, hnone⟩
  · rw [← length_filter_eq_countP hforall name] at htwo
    exact hknown name hname (occurrence_eq_repeated htwo)
  · have hcount := length_filter_eq_countP hforall name
    rw [List.countP_eq_zero.2 (by simpa using hnone)] at hcount
    exact hneeded name hname (occurrence_eq_missing (List.length_eq_zero_iff.1 hcount))

end Json

namespace Config

/-- An object that repeats a member, or an array with more items than there are fields. -/
def IsFaulty (j : Json) : Prop :=
  j.Miscounts memberNames [] ∨ j.IsArrayOfLength (memberNames.length < ·)

theorem occurrence_of_ofMembers? {members : List (String × Json)} {c : Config}
    (h : ofMembers? members = some c) :
    ∀ name ∈ memberNames, Json.occurrence name members ≠ .repeated := by
  simp only [ofMembers?, Option.bind_eq_bind, Option.bind_eq_some_iff] at h
  obtain ⟨_, hfixtures, _, hstrict, _, hformat, -⟩ := h
  have hfixtures := Json.occurrence_of_optional? hfixtures
  have hstrict := Json.occurrence_of_optional? hstrict
  have hformat := Json.occurrence_of_optional? hformat
  simp [memberNames, hfixtures, hstrict, hformat]

theorem ofJson?_of_isFaulty {j : Json} (h : IsFaulty j) : ofJson? j = none := by
  rcases h with h | ⟨items, rfl, hlength⟩
  · have hnone := h.decode_eq_none ofMembers? fun members c hc =>
      ⟨occurrence_of_ofMembers? hc, by simp⟩
    obtain ⟨raw, rfl, -⟩ := h
    exact hnone
  · match items, hlength with
    | _ :: _ :: _ :: _ :: _, _ => rfl

end Config

namespace FixtureResult

/-- The names of the members that have to be there. -/
def neededNames : List String := ["name", "outcome", "assertions"]

/-- An object that repeats a member or lacks a needed one, or an array with more or fewer items than
there are fields. -/
def IsFaulty (j : Json) : Prop :=
  j.Miscounts memberNames neededNames ∨ j.IsArrayOfLength (· ≠ memberNames.length)

theorem occurrence_of_ofMembers? {members : List (String × Json)} {r : FixtureResult}
    (h : ofMembers? members = some r) :
    (∀ name ∈ memberNames, Json.occurrence name members ≠ .repeated) ∧
      ∀ name ∈ neededNames, Json.occurrence name members ≠ .missing := by
  simp only [ofMembers?, Option.bind_eq_bind, Option.bind_eq_some_iff] at h
  obtain ⟨_, hname, _, houtcome, _, hassertions, _, hdiagnostic, _, hdiscrepancy, -⟩ := h
  obtain ⟨_, hname, -⟩ := Json.occurrence_of_required? hname
  obtain ⟨_, houtcome, -⟩ := Json.occurrence_of_required? houtcome
  obtain ⟨_, hassertions, -⟩ := Json.occurrence_of_required? hassertions
  have hdiagnostic := Json.occurrence_of_optional? hdiagnostic
  have hdiscrepancy := Json.occurrence_of_optional? hdiscrepancy
  simp [memberNames, neededNames, hname, houtcome, hassertions, hdiagnostic, hdiscrepancy]

theorem ofJson?_of_isFaulty {j : Json} (h : IsFaulty j) : ofJson? j = none := by
  rcases h with h | ⟨items, rfl, hlength⟩
  · have hnone := h.decode_eq_none ofMembers? fun members r hr =>
      occurrence_of_ofMembers? hr
    obtain ⟨raw, rfl, -⟩ := h
    exact hnone
  · match items, hlength with
    | [], _ | [_], _ | [_, _], _ | [_, _, _], _ | [_, _, _, _], _ => rfl
    | [_, _, _, _, _], hlength => exact absurd rfl hlength
    | _ :: _ :: _ :: _ :: _ :: _ :: _, _ => rfl

end FixtureResult

namespace Report

/-- An item of the list of results, in an object or in an array. -/
def HasItem (item j : Json) : Prop :=
  ∃ items, item ∈ items ∧
    ((∃ raw p, j = .object raw ∧ (p, .array items) ∈ raw ∧ p.toText? = some "results") ∨
      ∃ rest, j = .array (.array items :: rest))

/-- An object that repeats or lacks a member, an array with more or fewer items than there are
fields, or either of them with a faulty result. -/
def IsFaulty (j : Json) : Prop :=
  j.Miscounts memberNames memberNames ∨ j.IsArrayOfLength (· ≠ memberNames.length) ∨
    ∃ item, HasItem item j ∧ FixtureResult.IsFaulty item

theorem occurrence_of_ofMembers? {members : List (String × Json)} {r : Report}
    (h : ofMembers? members = some r) :
    (∀ name ∈ memberNames, Json.occurrence name members ≠ .repeated) ∧
      ∀ name ∈ memberNames, Json.occurrence name members ≠ .missing := by
  simp only [ofMembers?, Option.bind_eq_bind, Option.bind_eq_some_iff] at h
  obtain ⟨_, hresults, _, hstrict, -⟩ := h
  obtain ⟨_, hresults, -⟩ := Json.occurrence_of_required? hresults
  obtain ⟨_, hstrict, -⟩ := Json.occurrence_of_required? hstrict
  simp [memberNames, hresults, hstrict]

/-- In an object that is decoded, what is named for the results is what they are decoded from. -/
theorem toList?_of_ofMembers? {members : List (String × Json)} {r : Report}
    (h : ofMembers? members = some r) {j : Json} (hj : ("results", j) ∈ members) :
    j.toList? FixtureResult.ofJson? = some r.results := by
  simp only [ofMembers?, Option.bind_eq_bind, Option.bind_eq_some_iff] at h
  obtain ⟨results, hresults, strict, -, hr⟩ := h
  obtain ⟨k, hk, hresults⟩ := Json.occurrence_of_required? hresults
  obtain rfl : j = k := Json.eq_of_occurrence_eq_once hk hj
  cases hr
  exact hresults

theorem ofJson?_of_hasItem {item j : Json} (h : HasItem item j)
    (hitem : FixtureResult.ofJson? item = none) : ofJson? j = none := by
  obtain ⟨items, hmem, ⟨raw, p, rfl, hp, hname⟩ | ⟨rest, rfl⟩⟩ := h
  · show (Json.object raw).toMembers? >>= ofMembers? = none
    rw [Option.eq_none_iff_forall_ne_some]
    intro r hr
    obtain ⟨members, hmembers, hr⟩ := Option.bind_eq_some_iff.1 hr
    have hforall := Json.isObject_object_iff.1 (Json.toMembers?_eq_some_iff.1 hmembers)
    have hresults := toList?_of_ofMembers? hr (Json.mem_of_toText? hforall hp hname)
    rw [Json.toList?_eq_none_of_mem hmem hitem] at hresults
    cases hresults
  · match rest with
    | [] => rfl
    | [strict] =>
      show (Json.array items).toList? FixtureResult.ofJson? >>= _ = none
      rw [Json.toList?_eq_none_of_mem hmem hitem]
      rfl
    | _ :: _ :: _ => rfl

theorem ofJson?_of_isFaulty {j : Json} (h : IsFaulty j) : ofJson? j = none := by
  rcases h with h | ⟨items, rfl, hlength⟩ | ⟨item, hitem, hfault⟩
  · have hnone := h.decode_eq_none ofMembers? fun members r hr => occurrence_of_ofMembers? hr
    obtain ⟨raw, rfl, -⟩ := h
    exact hnone
  · match items, hlength with
    | [], _ | [_], _ => rfl
    | [_, _], hlength => exact absurd rfl hlength
    | _ :: _ :: _ :: _, _ => rfl
  · exact ofJson?_of_hasItem hitem (FixtureResult.ofJson?_of_isFaulty hfault)

end Report

/-! ## All shapes -/

/-- What a value decodes to, every text decodes to that is read as it. -/
theorem Json.decode_of_parse? {α : Type} {decode? : Json → Option α} {j : Json} {x? : Option α}
    (h : decode? j = x?) :
    decode? j = x? ∧ ∀ s, parse? s = some j → parse? s >>= decode? = x? := by
  refine ⟨h, fun s hs => ?_⟩
  rw [hs]
  exact h

/-- **Every shape of a configuration or report decodes to it, and faulty ones are refused.** For a
report the numbers of assertions fit in 64 bits. The same goes for every text that is read as such
a value; a plain value is read from its compact and from its pretty text. -/
theorem decode_shapes :
    (∀ (c : Config) (j : Json), c.IsShape j →
      Config.ofJson? j = some c ∧ ∀ s, Json.parse? s = some j → Config.ofJsonText? s = some c) ∧
    (∀ (r : Report) (j : Json), (∀ result ∈ r.results, result.assertions < UInt64.size) →
      r.IsShape j →
        Report.ofJson? j = some r ∧ ∀ s, Json.parse? s = some j → Report.ofJsonText? s = some r) ∧
    (∀ j : Json, Config.IsFaulty j →
      Config.ofJson? j = none ∧ ∀ s, Json.parse? s = some j → Config.ofJsonText? s = none) ∧
    (∀ j : Json, Report.IsFaulty j →
      Report.ofJson? j = none ∧ ∀ s, Json.parse? s = some j → Report.ofJsonText? s = none) ∧
    ∀ j : Json, j.Plain → Json.parse? j.compact = some j ∧ Json.parse? j.pretty = some j :=
  ⟨fun _ _ hj => Json.decode_of_parse? (Config.ofJson?_of_isShape hj),
    fun _ _ hr hj => Json.decode_of_parse? (Report.ofJson?_of_isShape hr hj),
    fun _ hj => Json.decode_of_parse? (Config.ofJson?_of_isFaulty hj),
    fun _ hj => Json.decode_of_parse? (Report.ofJson?_of_isFaulty hj),
    fun _ hj => ⟨Json.parse?_compact hj, Json.parse?_pretty hj⟩⟩

/-- A configuration out of order, with an unknown member and without its default; a report that is
an array, with an object and an array in it; and an object and an array with a fault each. -/
theorem decode_shapes_mixed :
    let c : Config := ⟨["forin"], false, .json⟩
    let shuffled : Json := .ofMembers [("report_format", .ofText "json"), ("note", .array [.null]),
      ("fixtures", .array [.ofText "forin"])]
    let r : Report := ⟨[⟨"a", .passed, 1, none, none⟩, ⟨"b", .failed, 2, some "d", none⟩], true⟩
    let result : Json := .ofMembers [("outcome", .ofText "passed"), ("name", .ofText "a"),
      ("assertions", .ofNat 1), ("diagnostic", .null)]
    let mixed : Json := .array [.array [result, .array [.ofText "b", .ofText "failed", .ofNat 2,
      .ofText "d", .null]], .bool true]
    let repeating : Json := .ofMembers [("fixtures", .array []), ("fixtures", .array [])]
    let lacking : Json := .array [.array [result, .ofMembers [("name", .ofText "b")]], .bool true]
    c.IsShape shuffled ∧ Config.ofJsonText? shuffled.compact = some c ∧
      r.IsShape mixed ∧ Report.ofJson? mixed = some r ∧
      Config.IsFaulty repeating ∧ Config.ofJson? repeating = none ∧
      Report.IsFaulty lacking ∧ Report.ofJson? lacking = none := by
  intro c shuffled r result mixed repeating lacking
  obtain ⟨hconfig, hreport, hfaultyConfig, hfaultyReport, hplain⟩ := decode_shapes
  have isText (s : String) : (Json.ofText s).IsText s := ⟨_, JsonString.toText?_ofText s, rfl⟩
  have isObject (members : List (String × Json)) : (Json.ofMembers members).IsObject members :=
    Json.toMembers?_eq_some_iff.1 (Json.toMembers?_ofMembers members)
  have hc : c.IsShape shuffled :=
    .inl ⟨_, isObject _, _,
      .cons ⟨_, rfl, .cons (isText _) .nil⟩ (.lack rfl (.cons (isText _) .nil)), .swap _ _ _⟩
  have hshuffled : shuffled.Plain := Json.Plain.ofMembers <| by
    simp only [List.forall_mem_cons]
    exact ⟨.ofText _, .array (by simpa using .null), .array (by simpa using .ofText _), by simp⟩
  have hresult : FixtureResult.IsShape ⟨"a", .passed, 1, none, none⟩ result :=
    .inl ⟨_, isObject _, _,
      .cons (isText _) (.cons (isText _) (.cons rfl (.cons rfl (.lack rfl .nil)))), .swap _ _ _⟩
  have hr : r.IsShape mixed := by
    refine .inr ⟨_, rfl, .cons ⟨_, rfl, .cons hresult (.cons (.inr ⟨_, rfl, ?_⟩) .nil)⟩
      (.cons rfl .nil)⟩
    exact .cons (isText _) (.cons (isText _) (.cons rfl (.cons (isText _) (.cons rfl .nil))))
  have hrepeating : Config.IsFaulty repeating :=
    .inl ⟨_, rfl, .inl ⟨"fixtures", .head _, by decide⟩⟩
  have hlacking : Report.IsFaulty lacking :=
    .inr (.inr ⟨_, ⟨_, .tail _ (.head _), .inr ⟨_, rfl⟩⟩,
      .inl ⟨_, rfl, .inr ⟨"outcome", .tail _ (.head _), by decide⟩⟩⟩)
  exact ⟨hc, (hconfig c shuffled hc).2 _ (hplain shuffled hshuffled).1, hr,
    (hreport r mixed (by decide) hr).1, hrepeating, (hfaultyConfig _ hrepeating).1, hlacking,
    (hfaultyReport _ hlacking).1⟩

end RecordWalk

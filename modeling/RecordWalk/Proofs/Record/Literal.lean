import Mathlib.Data.Finset.Card
import Mathlib.Data.List.Induction
import RecordWalk.Failure

/-!
# Records as object literals

A record is built like an object literal: its names come in the order of their *first* pairs, and
each has the value of its *last* pair.

The two rules pull in opposite directions, so both are read off the same step: adding one pair at
the end of the list either appends its name (`names_build_concat`) or leaves the names alone, and
in both cases changes the value under that name only (`get?_build_concat`). Every law of the
built record is then an induction that takes the pairs away from the end.

**Theorem (`build_objectLiteral`).** All observers of a built record (names, look-up, entries,
size, emptiness) agree with the first positions and last values of the pairs, and building again
from the entries changes nothing.
-/

namespace RecordWalk.Record

variable {α : Type}

/-- The value of the last pair with a name. -/
def lastValue? (pairs : List (String × α)) (name : String) : Option α :=
  (pairs.filter (·.1 = name)).getLast?.map Prod.snd

theorem lastValue?_concat (pairs : List (String × α)) (p : String × α) (name : String) :
    lastValue? (pairs ++ [p]) name =
      if name = p.1 then some p.2 else lastValue? pairs name := by
  unfold lastValue?
  by_cases h : name = p.1
  · rw [if_pos h, List.filter_append, List.filter_cons_of_pos (by simp [h])]
    simp
  · rw [if_neg h, List.filter_append, List.filter_cons_of_neg (by simpa using Ne.symm h)]
    simp

/-! ## One more pair -/

theorem entries_build_concat (id : Nat) (pairs : List (String × α)) (p : String × α) :
    (build id (pairs ++ [p])).entries = define p.1 p.2 (build id pairs).entries := by
  simp [build]

theorem names_build_concat (id : Nat) (pairs : List (String × α)) (p : String × α) :
    (build id (pairs ++ [p])).names =
      if p.1 ∈ (build id pairs).names then (build id pairs).names
      else (build id pairs).names ++ [p.1] := by
  unfold names
  rw [entries_build_concat, names_define]

theorem get?_build_concat (id : Nat) (pairs : List (String × α)) (p : String × α)
    (name : String) :
    (build id (pairs ++ [p])).get? name =
      if name = p.1 then some p.2 else (build id pairs).get? name := by
  unfold get?
  rw [entries_build_concat, lookup_define]

/-! ## First positions -/

theorem mem_names_build (id : Nat) (pairs : List (String × α)) (name : String) :
    name ∈ (build id pairs).names ↔ name ∈ pairs.map Prod.fst := by
  induction pairs using List.reverseRecOn with
  | nil => simp [build, names]
  | append_singleton pairs p ih =>
    rw [names_build_concat, List.map_append, List.mem_append, ← ih, List.map_singleton,
      List.mem_singleton]
    split_ifs with h
    · exact ⟨Or.inl, fun hn => hn.elim (fun hn => hn) fun e => e ▸ h⟩
    · rw [List.mem_append, List.mem_singleton]

theorem nodup_names_build (id : Nat) (pairs : List (String × α)) :
    (build id pairs).names.Nodup := by
  induction pairs using List.reverseRecOn with
  | nil => exact List.nodup_nil
  | append_singleton pairs p ih =>
    rw [names_build_concat]
    split_ifs with h
    · exact ih
    · exact List.nodup_append'.2 ⟨ih, List.nodup_singleton _, by simpa using h⟩

/-- The names are in the order of their first pairs. -/
theorem names_build_pairwise (id : Nat) (pairs : List (String × α)) :
    (build id pairs).names.Pairwise fun m n =>
      (pairs.map Prod.fst).idxOf m < (pairs.map Prod.fst).idxOf n := by
  induction pairs using List.reverseRecOn with
  | nil => exact List.Pairwise.nil
  | append_singleton pairs p ih =>
    -- A name that is there already keeps its index when a pair is added at the end.
    have hold : ∀ n ∈ (build id pairs).names,
        ((pairs ++ [p]).map Prod.fst).idxOf n = (pairs.map Prod.fst).idxOf n := by
      intro n hn
      rw [List.map_append, List.idxOf_append_of_mem ((mem_names_build id pairs n).1 hn)]
    have hkeep : (build id pairs).names.Pairwise fun m n =>
        ((pairs ++ [p]).map Prod.fst).idxOf m < ((pairs ++ [p]).map Prod.fst).idxOf n :=
      ih.imp_of_mem fun hm hn h => by rwa [hold _ hm, hold _ hn]
    rw [names_build_concat]
    split_ifs with h
    · exact hkeep
    · refine List.pairwise_append.2 ⟨hkeep, List.pairwise_singleton _ _, fun m hm n hn => ?_⟩
      obtain rfl := List.mem_singleton.1 hn
      have hnew : p.1 ∉ pairs.map Prod.fst := fun e => h ((mem_names_build id pairs p.1).2 e)
      have hlt := List.idxOf_lt_length_of_mem ((mem_names_build id pairs m).1 hm)
      rw [hold m hm, List.map_append, List.idxOf_append_of_notMem hnew]
      omega

theorem size_build (id : Nat) (pairs : List (String × α)) :
    (build id pairs).size = (pairs.map Prod.fst).toFinset.card := by
  have hnames : (build id pairs).names.toFinset = (pairs.map Prod.fst).toFinset := by
    ext name
    rw [List.mem_toFinset, List.mem_toFinset, mem_names_build]
  rw [← hnames, List.toFinset_card_of_nodup (nodup_names_build id pairs)]
  simp [size, names]

theorem isEmpty_build (id : Nat) (pairs : List (String × α)) :
    (build id pairs).isEmpty = true ↔ pairs = [] := by
  have h : (build id pairs).size = 0 ↔ pairs = [] := by
    rw [size_build, Finset.card_eq_zero, List.toFinset_eq_empty_iff, List.map_eq_nil_iff]
  rw [← h]
  simp [isEmpty, size]

/-! ## Last values -/

theorem get?_build (id : Nat) (pairs : List (String × α)) (name : String) :
    (build id pairs).get? name = lastValue? pairs name := by
  induction pairs using List.reverseRecOn with
  | nil => rfl
  | append_singleton pairs p ih => rw [get?_build_concat, lastValue?_concat, ih]

/-! ## Records with distinct names -/

/-- With distinct names, the look-up of an entry's name finds that entry. -/
theorem get?_of_mem_entries {r : Record α} (h : r.names.Nodup) {p : String × α}
    (hp : p ∈ r.entries) : r.get? p.1 = some p.2 := by
  obtain ⟨id, entries⟩ := r
  change (entries.map Prod.fst).Nodup at h
  change p ∈ entries at hp
  change entries.lookup p.1 = some p.2
  induction entries with
  | nil => cases hp
  | cons q rest ih =>
    obtain ⟨n, v⟩ := q
    obtain ⟨hn, hrest⟩ := List.nodup_cons.1 h
    rcases List.mem_cons.1 hp with rfl | hp
    · rw [List.lookup_cons_self]
    · have hne : p.1 ≠ n := fun e => hn (List.mem_map.2 ⟨p, hp, e⟩)
      rw [List.lookup_cons, beq_eq_false_iff_ne.2 hne]
      exact ih hrest hp

theorem get_of_mem_entries {r : Record Value} (h : r.names.Nodup) {p : String × Value}
    (hp : p ∈ r.entries) : r.get p.1 = .ok p.2 := by
  rw [get, get?_of_mem_entries h hp]

/-- The entries are taken from the pairs. -/
theorem mem_of_mem_entries_build {id : Nat} {pairs : List (String × α)} {p : String × α}
    (hp : p ∈ (build id pairs).entries) : p ∈ pairs := by
  have hget := get?_of_mem_entries (nodup_names_build id pairs) hp
  rw [get?_build] at hget
  obtain ⟨q, hq, hqp⟩ := Option.map_eq_some_iff.1 hget
  obtain ⟨hmem, hname⟩ := List.mem_filter.1 (List.mem_of_getLast? hq)
  have hpq : q = p := Prod.ext (of_decide_eq_true hname) hqp
  exact hpq ▸ hmem

theorem define_of_notMem {name : String} {entries : List (String × α)}
    (h : name ∉ entries.map Prod.fst) (value : α) :
    define name value entries = entries ++ [(name, value)] := by
  induction entries with
  | nil => rfl
  | cons q rest ih =>
    rw [List.map_cons, List.mem_cons, not_or] at h
    rw [define, if_neg (Ne.symm h.1), ih h.2, List.cons_append]

/-- Pairs with distinct names are the entries of their record. -/
theorem entries_build_of_nodup (id : Nat) {pairs : List (String × α)}
    (h : (pairs.map Prod.fst).Nodup) : (build id pairs).entries = pairs := by
  induction pairs using List.reverseRecOn with
  | nil => rfl
  | append_singleton pairs p ih =>
    rw [List.map_append, List.nodup_append'] at h
    obtain ⟨hpairs, -, hnew⟩ := h
    rw [entries_build_concat, ih hpairs]
    exact define_of_notMem (fun e => hnew e (by simp)) p.2

/-! ## All observers -/

theorem rest_cursor (r : Record α) : r.cursor.rest.1 = r.names := rfl

/-- The entries pair each name with the value that its look-up gives. -/
theorem forall₂_names_entries {r : Record Value} (h : r.names.Nodup) :
    List.Forall₂ (fun n p => p.1 = n ∧ r.get n = .ok p.2) r.names r.entries := by
  refine List.forall₂_map_left_iff.2 (List.forall₂_same.2 fun p hp => ?_)
  exact ⟨rfl, get_of_mem_entries h hp⟩

/-- **Building is evaluating an object literal.** The names of a built record are distinct, are
those of the pairs, and stand in the order of their first pairs. A look-up gives the value of the
last pair with the name, or fails if there is none, with the code `E_PROPNF`. The size counts the
distinct names, and only no pairs at all give an empty record. The entries are the names, in order,
with what looking them up gives, and building from them again gives them back. -/
theorem build_objectLiteral (id id' : Nat) (pairs : List (String × Value)) :
    let r := build id pairs
    let keys := r.cursor.rest.1
    keys.Nodup ∧ (∀ n, n ∈ keys ↔ n ∈ pairs.map Prod.fst) ∧
      (keys.Pairwise fun m n =>
        (pairs.map Prod.fst).idxOf m < (pairs.map Prod.fst).idxOf n) ∧
      (∀ n, r.get n = (lastValue? pairs n).elim
        (.error ⟨.propertyNotFound, some ("Property not found: " ++ quote n), none⟩) .ok) ∧
      FailureCode.propertyNotFound.label = "E_PROPNF" ∧
      r.size = (pairs.map Prod.fst).toFinset.card ∧ (r.isEmpty = true ↔ pairs = []) ∧
      List.Forall₂ (fun n p => p.1 = n ∧ r.get n = .ok p.2) keys r.entries ∧
      (build id' r.entries).entries = r.entries := by
  intro r keys
  have hkeys : keys = r.names := rest_cursor r
  have hnodup : r.names.Nodup := nodup_names_build id pairs
  rw [hkeys]
  refine ⟨hnodup, mem_names_build id pairs, names_build_pairwise id pairs, fun n => ?_,
    rfl, size_build id pairs, isEmpty_build id pairs, forall₂_names_entries hnodup,
    entries_build_of_nodup id' hnodup⟩
  rw [get, get?_build]
  cases lastValue? pairs n <;> rfl

end RecordWalk.Record

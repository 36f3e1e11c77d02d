import Mathlib.Algebra.Group.Prod
import RecordWalk.Proofs.Script.Reach

/-!
# Building steps

An expression has a building step for each record and each function that is described in it, and
for each level of a nest. What a function builds anew at each call is not among its own steps.

**Theorem (`Expr.adds_build`).** Each building step of an expression takes a place of its own in the
store: there are as many new records and new functions as steps.

**Theorem (`Expr.Builds.isNew_build`).** If an expression is a building step itself, its value has
an identity that the store had not given out before.
-/

namespace RecordWalk

/-! ## Counting -/

mutual

/-- The numbers of records and of functions that an expression builds. -/
def Expr.steps : Expr → Nat × Nat
  | .record properties => stepsOfProperties properties + (1, 0)
  | .nest depth _ leaf => leaf.steps + (depth, 0)
  | .function _ body => body.steps + (0, 1)
  | _ => (0, 0)

def stepsOfProperties : List (String × Expr) → Nat × Nat
  | [] => (0, 0)
  | (_, e) :: rest => e.steps + stepsOfProperties rest

/-- The numbers of records and of functions that are built with a function, before any call. -/
def Body.steps : Body → Nat × Nat
  | .constant e | .call e | .walk e | .property e _ | .toNumber e | .display e => e.steps
  | .throw _ _ (some e) => e.steps
  | .sequence bodies => stepsOfBodies bodies
  | .fresh _ | .throw _ _ none | .counter _ => (0, 0)

def stepsOfBodies : List Body → Nat × Nat
  | [] => (0, 0)
  | body :: rest => body.steps + stepsOfBodies rest

end

/-- A store has so many more records and functions. -/
structure Store.Adds (s t : Store) (n : Nat × Nat) : Prop where
  records : t.records.size = s.records.size + n.1
  functions : t.functions.size = s.functions.size + n.2

namespace Store

variable {s t u : Store}

theorem Adds.refl (s : Store) : s.Adds s (0, 0) := ⟨rfl, rfl⟩

theorem Adds.trans {m n : Nat × Nat} (h : s.Adds t m) (h' : t.Adds u n) : s.Adds u (m + n) :=
  ⟨by rw [h'.records, h.records, Nat.add_assoc, Prod.fst_add],
    by rw [h'.functions, h.functions, Nat.add_assoc, Prod.snd_add]⟩

theorem adds_newRecord (s : Store) (pairs : List (String × Value)) :
    s.Adds (s.newRecord pairs).2 (1, 0) := ⟨Array.size_push _, rfl⟩

theorem adds_newFunction (s : Store) (name : Option String) (b : Behavior) :
    s.Adds (s.newFunction name b).2 (0, 1) := ⟨rfl, Array.size_push _⟩

theorem adds_wrap (name : String) (n : Nat) :
    ∀ (v : Value) (s : Store), s.Adds (s.wrap name n v).2 (n, 0) := by
  induction n with
  | zero => exact fun _ s => .refl s
  | succ n ih =>
    intro v s
    have h := (s.adds_newRecord [(name, v)]).trans (ih (.record (s.newRecord [(name, v)]).1) _)
    rwa [Prod.mk_add_mk, Nat.add_comm 1 n] at h

end Store

mutual

/-- **Each building step takes a place of its own.** -/
theorem Expr.adds_build (scope : Scope) :
    ∀ (e : Expr) (s : Store), s.Adds (e.build scope s).2 e.steps
  | .undefined, s | .null, s | .bool _, s | .number _, s | .text _, s | .reference _, s => .refl s
  | .record properties, s =>
    (adds_buildProperties scope properties s).trans (Store.adds_newRecord _ _)
  | .nest depth name leaf, s =>
    (Expr.adds_build scope leaf s).trans (Store.adds_wrap name depth _ _)
  | .function name body, s => (Body.adds_build scope body s).trans (Store.adds_newFunction _ name _)

theorem adds_buildProperties (scope : Scope) :
    ∀ (properties : List (String × Expr)) (s : Store),
      s.Adds (buildProperties scope properties s).2 (stepsOfProperties properties)
  | [], s => .refl s
  | (_, e) :: rest, s => (Expr.adds_build scope e s).trans (adds_buildProperties scope rest _)

theorem Body.adds_build (scope : Scope) :
    ∀ (body : Body) (s : Store), s.Adds (body.build scope s).2 body.steps
  | .constant e, s | .call e, s | .walk e, s | .property e _, s | .toNumber e, s | .display e, s =>
    Expr.adds_build scope e s
  | .throw _ _ (some e), s => Expr.adds_build scope e s
  | .sequence bodies, s => adds_buildBodies scope bodies s
  | .fresh _, s | .throw _ _ none, s | .counter _, s => .refl s

theorem adds_buildBodies (scope : Scope) :
    ∀ (bodies : List Body) (s : Store), s.Adds (buildBodies scope bodies s).2 (stepsOfBodies bodies)
  | [], s => .refl s
  | body :: rest, s => (Body.adds_build scope body s).trans (adds_buildBodies scope rest _)

end

/-! ## New values -/

/-- A record or function with an identity that a store has not given out. -/
inductive Value.IsNew (s : Store) : Value → Prop
  | record {r : Record Value} : s.records.size ≤ r.id → IsNew s (.record r)
  | function {f : Callable} : s.functions.size ≤ f.id → IsNew s (.function f)

namespace Value.IsNew

variable {s t : Store} {v : Value}

theorem isObject (h : v.IsNew s) : v.isObject = true := by cases h <;> rfl

theorem of_adds {n : Nat × Nat} (h : v.IsNew t) (hst : s.Adds t n) : v.IsNew s := by
  obtain ⟨hrecords, hfunctions⟩ := hst
  cases h with
  | record hr => exact .record (by omega)
  | function hf => exact .function (by omega)

end Value.IsNew

theorem Store.isNew_newRecord (s : Store) (pairs : List (String × Value)) :
    Value.IsNew s (.record (s.newRecord pairs).1) := .record (Nat.le_refl _)

theorem Store.isNew_wrap (name : String) (n : Nat) :
    ∀ (v : Value) (s : Store), (s.wrap name (n + 1) v).1.IsNew s := by
  induction n with
  | zero => exact fun v s => s.isNew_newRecord [(name, v)]
  | succ n ih =>
    intro v s
    exact (ih (.record (s.newRecord [(name, v)]).1) _).of_adds (s.adds_newRecord [(name, v)])

/-- An expression that is a building step itself. -/
inductive Expr.Builds : Expr → Prop
  | record (properties : List (String × Expr)) : Builds (.record properties)
  | nest (depth : Nat) (name : String) (leaf : Expr) : Builds (.nest (depth + 1) name leaf)
  | function (name : Option String) (body : Body) : Builds (.function name body)

/-- **What is built is new** to the store. -/
theorem Expr.Builds.isNew_build {e : Expr} (h : e.Builds) (scope : Scope) (s : Store) :
    (e.build scope s).1.IsNew s := by
  cases h with
  | record properties =>
    exact (Store.isNew_newRecord _ _).of_adds (adds_buildProperties scope properties s)
  | nest depth name leaf =>
    exact (Store.isNew_wrap name depth _ _).of_adds (leaf.adds_build scope s)
  | function name body =>
    have hnew : Value.IsNew (body.build scope s).2 ((Expr.function name body).build scope s).1 :=
      .function (Nat.le_refl _)
    exact hnew.of_adds (body.adds_build scope s)

end RecordWalk

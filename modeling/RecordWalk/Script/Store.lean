import RecordWalk.Script.Basic
import RecordWalk.Walk

/-!
# The store

The store is the state in which scripts are built and functions are called. It keeps every record
and every function that was built, a function together with its behavior, and remembers all calls.
The identity of a record or a function is its place in the store.

**Building.** `Expr.build` makes the value of an expression. A function is entered after all that
its body holds, so a behavior refers only to functions with smaller identities.

**Calling.** `Store.invoke` enters a call and runs the behavior of the callable. What a behavior
does may depend on how often its function was called before, and on nothing else that changes.
Since a running function calls only functions with smaller identities, its identity bounds the
depth of nested calls.
-/

namespace RecordWalk

/-- What a function does, with all values in it built. -/
inductive Behavior where
  | constant (v : Value)
  | fresh (e : Expr) (scope : Scope)
  | throw (f : Failure)
  | counter (start : Int64)
  | sequence (behaviors : List Behavior)
  | call (v : Value)
  | walk (v : Value)
  | property (v : Value) (name : String)
  | toNumber (v : Value)
  | display (v : Value)

/-- What was built, and what was called. -/
structure Store where
  /-- Every record built, at its identity. -/
  records : Array (Record Value)
  /-- Every function built, at its identity, with its behavior. -/
  functions : Array (Callable × Behavior)
  /-- All calls, the latest first. -/
  calls : List Callable

namespace Store

def empty : Store := ⟨#[], #[], []⟩

/-- Build a record with a new identity. -/
def newRecord (s : Store) (pairs : List (String × Value)) : Record Value × Store :=
  let r := .build s.records.size pairs
  (r, { s with records := s.records.push r })

/-- Enter a function with a new identity. -/
def newFunction (s : Store) (name : Option String) (b : Behavior) : Callable × Store :=
  let f := ⟨s.functions.size, name⟩
  (f, { s with functions := s.functions.push (f, b) })

/-- The number of calls of a function so far. -/
def callCount (s : Store) (f : Callable) : Nat := s.calls.countP (·.id == f.id)

/-- Enter a call. -/
def enterCall (s : Store) (f : Callable) : Store := { s with calls := f :: s.calls }

/-- The names of the functions called, without the first `skip` calls, in order. -/
def calledNames (s : Store) (skip : Nat) : List (Option String) :=
  (s.calls.reverse.drop skip).map Callable.name

/-- Wrap a value so many times in a new record with one property. -/
def wrap (name : String) : Nat → Value → Store → Value × Store
  | 0, v, s => (v, s)
  | n + 1, v, s =>
    let (r, s) := s.newRecord [(name, v)]
    wrap name n (.record r) s

end Store

/-! ## Building -/

mutual

/-- The value of an expression. -/
def Expr.build (scope : Scope) : Expr → Store → Value × Store
  | .undefined, s => (.undefined, s)
  | .null, s => (.null, s)
  | .bool b, s => (.bool b, s)
  | .number x, s => (.number x, s)
  | .text t, s => (.text t, s)
  | .record properties, s =>
    let (pairs, s) := buildProperties scope properties s
    let (r, s) := s.newRecord pairs
    (.record r, s)
  | .nest depth name leaf, s =>
    let (v, s) := leaf.build scope s
    s.wrap name depth v
  | .function name body, s =>
    let (b, s) := body.build scope s
    let (f, s) := s.newFunction name b
    (.function f, s)
  | .reference name, s => (scope.get name, s)

/-- The values of named expressions, from left to right. -/
def buildProperties (scope : Scope) :
    List (String × Expr) → Store → List (String × Value) × Store
  | [], s => ([], s)
  | (name, e) :: rest, s =>
    let (v, s) := e.build scope s
    let (pairs, s) := buildProperties scope rest s
    ((name, v) :: pairs, s)

/-- The behavior of a body. -/
def Body.build (scope : Scope) : Body → Store → Behavior × Store
  | .constant e, s =>
    let (v, s) := e.build scope s
    (.constant v, s)
  | .fresh e, s => (.fresh e scope, s)
  | .throw code message none, s => (.throw ⟨code, message, none⟩, s)
  | .throw code message (some e), s =>
    let (v, s) := e.build scope s
    (.throw ⟨code, message, some v⟩, s)
  | .counter start, s => (.counter start, s)
  | .sequence bodies, s =>
    let (bs, s) := buildBodies scope bodies s
    (.sequence bs, s)
  | .call e, s =>
    let (v, s) := e.build scope s
    (.call v, s)
  | .walk e, s =>
    let (v, s) := e.build scope s
    (.walk v, s)
  | .property e name, s =>
    let (v, s) := e.build scope s
    (.property v name, s)
  | .toNumber e, s =>
    let (v, s) := e.build scope s
    (.toNumber v, s)
  | .display e, s =>
    let (v, s) := e.build scope s
    (.display v, s)

/-- The behaviors of bodies, from left to right. -/
def buildBodies (scope : Scope) : List Body → Store → List Behavior × Store
  | [], s => ([], s)
  | body :: rest, s =>
    let (b, s) := body.build scope s
    let (bs, s) := buildBodies scope rest s
    (b :: bs, s)

end

/-- A new record of named expressions. -/
def buildRecord (scope : Scope) (properties : List (String × Expr)) (s : Store) :
    Record Value × Store :=
  let (pairs, s) := buildProperties scope properties s
  s.newRecord pairs

/-- The failure of a description. -/
def FailureExpr.build (scope : Scope) (f : FailureExpr) (s : Store) : Failure × Store :=
  match f.value? with
  | none => (⟨f.code, f.message?, none⟩, s)
  | some e =>
    let (v, s) := e.build scope s
    (⟨f.code, f.message?, some v⟩, s)

/-! ## Calling -/

mutual

/-- Run a behavior for the call that comes after `k` earlier ones. -/
def Behavior.run (invoke : Invoke Store) :
    Behavior → Nat → Store → Except Failure Value × Store
  | .constant v, _, s => (.ok v, s)
  | .fresh e scope, _, s =>
    let (v, s) := e.build scope s
    (.ok v, s)
  | .throw f, _, s => (.error f, s)
  | .counter start, k, s => (.ok (.number (.ofInt (start + .ofNat k).toInt)), s)
  | .sequence bs, k, s => runSequence invoke bs k s
  | .call v, _, s => v.call invoke s
  | .walk v, _, s =>
    let (result, s) := v.asRecord.walk invoke s
    (result.map .text, s)
  | .property v name, _, s => (v.asRecord.get name, s)
  | .toNumber v, _, s => (.ok (.number v.toNumber), s)
  | .display v, _, s => (.ok (.text v.display), s)

/-- Run the behavior whose turn it is: each but the last is run once. -/
def runSequence (invoke : Invoke Store) :
    List Behavior → Nat → Store → Except Failure Value × Store
  | [], _, s => (.ok .undefined, s)
  | [b], k, s => b.run invoke k s
  | b :: _, 0, s => b.run invoke 0 s
  | _ :: bs, k + 1, s => runSequence invoke bs k s

end

namespace Store

/-- Call a function, with calls nested at most `depth` deep. -/
def invokeWithin : Nat → Invoke Store
  | 0, _, s => (.ok .undefined, s)
  | depth + 1, f, s =>
    match s.functions[f.id]? with
    | none => (.ok .undefined, s)
    | some (_, b) => b.run (invokeWithin depth) (s.callCount f) (s.enterCall f)

/-- Call a function. -/
def invoke : Invoke Store := fun f s => invokeWithin (f.id + 1) f s

end Store

end RecordWalk

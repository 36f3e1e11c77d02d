import RecordWalk.Fixture.Run
import RecordWalk.Fixture.Script
import RecordWalk.Value.Inspect

/-!
# Sessions

A session runs steps one after the other over one store. It keeps variables, cursors and text
accumulators by name. A step gives an answer; it may also bind its outcome to a variable, but a
step that fails binds nothing.

Answers to calls and walks tell which functions were called since the last such answer. A fixture
can be run with the variables of a session, too.
-/

namespace RecordWalk

/-- The state of a session. -/
structure Session where
  store : Store
  scope : Scope
  cursors : List (String × Cursor)
  accumulators : List (String × String)
  /-- The number of calls already told. -/
  told : Nat

/-- What a step asks for. -/
inductive Request where
  | value (e : Expr)
  | drop (name : String)
  | property (record : Expr) (name : String)
  | call (e : Expr)
  | walk (record : Expr)
  | size (record : Expr)
  | entries (record : Expr)
  | same (record other : Expr)
  | start (record : Expr) (cursor : String)
  | next (cursor : String)
  | rest (cursor : String)
  | append (accumulator : String) (e : Expr)
  | compare (a b : Expr)
  | inspect (e : Expr)

/-- A request, and the variable for its outcome. -/
structure Step where
  request : Request
  bindTo : Option String

inductive Answer where
  | value (v : Value)
  | nothing
  | property (outcome : Except Failure Value)
  | called (outcome : Except Failure Value) (calls : List (Option String))
  | walked (outcome : Except Failure String) (calls : List (Option String))
  | size (size : Nat) (isEmpty : Bool)
  | entries (entries : List (String × Value))
  | same (same : Bool)
  | started (remaining : Nat)
  | next (name : Option String) (remaining : Nat)
  | names (names : List String)
  | text (s : String)
  | comparison (c : Value.Comparison)
  | inspection (i : Inspection)

namespace Answer

/-- What a step with this answer binds. -/
def outcome? : Answer → Option Value
  | value v => some v
  | property (.ok v) => some v
  | called (.ok v) _ => some v
  | walked (.ok s) _ => some (.text s)
  | text s => some (.text s)
  | _ => none

end Answer

namespace Session

def empty : Session := ⟨.empty, [], [], [], 0⟩

/-- Build the value of an expression. -/
def build (e : Expr) (s : Session) : Value × Session :=
  let (v, store) := e.build s.scope s.store
  (v, { s with store })

/-- Build the values of expressions, from left to right. -/
def buildAll (s : Session) : List Expr → List Value × Session
  | [] => ([], s)
  | e :: es =>
    let (v, s) := s.build e
    let (vs, s) := s.buildAll es
    (v :: vs, s)

/-- The calls not told yet, which are told now. -/
def tellCalls (s : Session) : List (Option String) × Session :=
  (s.store.calledNames s.told, { s with told := s.store.calls.length })

/-- The result of a described fixture, and the calls that it made. -/
def runFixture (s : Session) (f : FixtureExpr) : FixtureResult × List (Option String) :=
  let (fixture, store) := f.build s.scope s.store
  let (result, store) := fixture.result Store.invoke store
  (result, (tellCalls { s with store }).1)

def cursor (s : Session) (name : String) : Cursor := (s.cursors.lookup name).getD ⟨[], 0⟩

def setCursor (s : Session) (name : String) (c : Cursor) : Session :=
  { s with cursors := (name, c) :: s.cursors.filter (·.1 ≠ name) }

def accumulator (s : Session) (name : String) : String := (s.accumulators.lookup name).getD ""

def setAccumulator (s : Session) (name : String) (text : String) : Session :=
  { s with accumulators := (name, text) :: s.accumulators.filter (·.1 ≠ name) }

/-- Answer a request. -/
def answer (s : Session) : Request → Answer × Session
  | .value e =>
    let (v, s) := s.build e
    (.value v, s)
  | .drop name => (.nothing, { s with scope := s.scope.erase name })
  | .property e name =>
    let (v, s) := s.build e
    (.property (v.asRecord.get name), s)
  | .call e =>
    let (v, s) := s.build e
    let (outcome, store) := v.call Store.invoke s.store
    let (calls, s) := tellCalls { s with store }
    (.called outcome calls, s)
  | .walk e =>
    let (v, s) := s.build e
    let (outcome, store) := v.asRecord.walk Store.invoke s.store
    let (calls, s) := tellCalls { s with store }
    (.walked outcome calls, s)
  | .size e =>
    let (v, s) := s.build e
    (.size v.asRecord.size v.asRecord.isEmpty, s)
  | .entries e =>
    let (v, s) := s.build e
    (.entries v.asRecord.entries, s)
  | .same e e' =>
    let (v, s) := s.build e
    let (w, s) := s.build e'
    (.same (v.asRecord.same w.asRecord), s)
  | .start e name =>
    let (v, s) := s.build e
    let c := v.asRecord.cursor
    (.started c.remaining, s.setCursor name c)
  | .next name =>
    let (n, c) := (s.cursor name).next
    (.next n c.remaining, s.setCursor name c)
  | .rest name =>
    let (ns, c) := (s.cursor name).rest
    (.names ns, s.setCursor name c)
  | .append name e =>
    let (v, s) := s.build e
    let text := v.appendTo (s.accumulator name)
    (.text text, s.setAccumulator name text)
  | .compare e e' =>
    let (v, s) := s.build e
    let (w, s) := s.build e'
    (.comparison (v.compare w), s)
  | .inspect e =>
    let (v, s) := s.build e
    (.inspection v.inspect, s)

/-- Take a step: answer its request, and bind the outcome. -/
def step (s : Session) (p : Step) : Answer × Session :=
  let (a, s) := s.answer p.request
  match p.bindTo, a.outcome? with
  | some name, some v => (a, { s with scope := s.scope.bind name v })
  | _, _ => (a, s)

/-- Take steps one after the other. -/
def run (s : Session) : List Step → List Answer × Session
  | [] => ([], s)
  | p :: ps =>
    let (a, s) := s.step p
    let (as, s) := s.run ps
    (a :: as, s)

end Session

end RecordWalk

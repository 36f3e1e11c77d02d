import RecordWalk.Failure

/-!
# Scripts

A script describes values to be built and functions to be called. An *expression* describes a
value: building it makes a new identity for every record and function in it. A *body* describes
what a function does when it is called. The expressions in a body are built together with the
function, once, except under `fresh`, which builds its value at every call.
-/

namespace RecordWalk

mutual

/-- The description of a value. -/
inductive Expr where
  | undefined
  | null
  | bool (b : Bool)
  | number (x : Double)
  | text (s : String)
  | record (properties : List (String × Expr))
  /-- A value wrapped so many times in a record with one property. -/
  | nest (depth : Nat) (name : String) (leaf : Expr)
  | function (name : Option String) (body : Body)
  /-- The value that a variable has. -/
  | reference (name : String)

/-- The description of a function's body. -/
inductive Body where
  /-- The same value at each call. -/
  | constant (e : Expr)
  /-- A value built anew at each call. -/
  | fresh (e : Expr)
  | throw (code : FailureCode) (message : Option String) (value : Option Expr)
  /-- A number that grows by one with each call. -/
  | counter (start : Int64)
  /-- One body for each call; the last one goes on. -/
  | sequence (bodies : List Body)
  | call (e : Expr)
  | walk (e : Expr)
  | property (e : Expr) (name : String)
  | toNumber (e : Expr)
  | display (e : Expr)

end

/-- The description of a failure. -/
structure FailureExpr where
  code : FailureCode
  message? : Option String
  value? : Option Expr

/-- The variables in reach, the latest first. -/
abbrev Scope := List (String × Value)

namespace Scope

/-- The value of a variable; one that was never bound is undefined. -/
def get (scope : Scope) (name : String) : Value := (scope.lookup name).getD .undefined

def erase (scope : Scope) (name : String) : Scope := scope.filter (·.1 ≠ name)

def bind (scope : Scope) (name : String) (v : Value) : Scope := (name, v) :: scope.erase name

end Scope

end RecordWalk

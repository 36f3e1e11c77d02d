import RecordWalk.Double.Basic
import RecordWalk.Record

/-!
# Values

A value is undefined, null, a boolean, a double, a text, a record of values or a callable. A
callable has an identity and an optional name; what calling it does is not part of the value.
-/

namespace RecordWalk

/-- A function value. -/
structure Callable where
  id : Nat
  name : Option String
deriving DecidableEq

inductive Value where
  | undefined
  | null
  | bool (b : Bool)
  | number (x : Double)
  | text (s : String)
  | record (r : Record Value)
  | function (f : Callable)

/-- The kinds of values, in the order of their codes. -/
inductive Kind where
  | undefined | null | bool | number | text | record | function
deriving DecidableEq

namespace Kind

def code : Kind → Nat
  | undefined => 0
  | null => 1
  | bool => 2
  | number => 3
  | text => 4
  | record => 5
  | function => 6

def label : Kind → String
  | undefined => "UNDEFINED"
  | null => "NULL"
  | bool => "BOOL"
  | number => "NUMBER"
  | text => "STR"
  | record => "OBJECT"
  | function => "FUNCTION"

/-- The name that the `typeof` operator gives. -/
def typeof : Kind → String
  | undefined => "undefined"
  | null => "object"
  | bool => "boolean"
  | number => "number"
  | text => "string"
  | record => "object"
  | function => "function"

end Kind

namespace Value

def kind : Value → Kind
  | undefined => .undefined
  | null => .null
  | bool _ => .bool
  | number _ => .number
  | text _ => .text
  | record _ => .record
  | function _ => .function

def isCallable : Value → Bool
  | function _ => true
  | _ => false

/-- Undefined and null. -/
def isNullish : Value → Bool
  | undefined => true
  | null => true
  | _ => false

/-- Records and functions, which have an identity. -/
def isObject : Value → Bool
  | record _ => true
  | function _ => true
  | _ => false

/-- The record that a value is; any other value has no properties. -/
def asRecord : Value → Record Value
  | record r => r
  | _ => ⟨0, []⟩

end Value

end RecordWalk

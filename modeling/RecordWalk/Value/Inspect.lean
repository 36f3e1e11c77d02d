import RecordWalk.Value.Debug
import RecordWalk.Value.Equality

/-!
# Inspection

Everything that can be asked of one value, side by side.
-/

namespace RecordWalk

structure Inspection where
  kind : Kind
  callable : Bool
  display : String
  number : Double
  primitive : Value
  debug : String
  strictSelf : Bool
  looseSelf : Bool

def Value.inspect (v : Value) : Inspection where
  kind := v.kind
  callable := v.isCallable
  display := v.display
  number := v.toNumber
  primitive := v.toPrimitive
  debug := v.debug
  strictSelf := v.strictEq v
  looseSelf := v.looseEq v

end RecordWalk

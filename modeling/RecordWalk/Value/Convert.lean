import RecordWalk.Double.Text
import RecordWalk.Numeral
import RecordWalk.Value.Basic

/-!
# Conversions

The conversions that operators apply to their operands: to a text, to a number, and to a
primitive value. Records and functions have no conversions of their own, so their display text
stands for them.
-/

namespace RecordWalk

/-- The number that a boolean counts as. -/
def Double.ofBool (b : Bool) : Double := .ofInt (if b then 1 else 0)

namespace Value

/-- The display text. -/
def display : Value → String
  | undefined => "undefined"
  | null => "null"
  | bool b => if b then "true" else "false"
  | number x => x.display
  | text s => s
  | record _ => "[object Object]"
  | function f => "function " ++ f.name.getD "" ++ "() \x7b [native code] \x7d"

/-- The numeric value. -/
def toNumber : Value → Double
  | undefined => .nan
  | null => .zero
  | bool b => .ofBool b
  | number x => x
  | text s => .read s
  | v => .read v.display

/-- Records and functions become their display text, all else stays. -/
def toPrimitive : Value → Value
  | record r => text (display (record r))
  | function f => text (display (function f))
  | v => v

@[simp] theorem isObject_toPrimitive (v : Value) : v.toPrimitive.isObject = false := by
  cases v <;> rfl

/-- A text with a value appended to it, as `+=` does. -/
def appendTo (v : Value) (acc : String) : String := acc ++ v.toPrimitive.display

end Value

/-- The texts after each of some values is appended. -/
def appendEach : String → List Value → List String
  | _, [] => []
  | acc, v :: vs => v.appendTo acc :: appendEach (v.appendTo acc) vs

end RecordWalk
